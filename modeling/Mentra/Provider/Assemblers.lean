import Mentra.Agent.Pending
import Mentra.Provider.Blocks

/-!
# Two assemblers of one stream

The runtime puts an assistant turn together with `PendingAssistantTurn`, while
`collect_response_from_stream` uses a builder of its own.  They treat three kinds of delta
differently: a slice of a hosted search's query and of an image's revised prompt is appended
by the builder and replaces the text in the turn, and text after a structured tool result is
merged by the builder and replaces the result in the turn.  The contents agree exactly when
no block shows the difference.
-/

namespace Mentra

open Foundation List Option StreamingContentBlock PendingContentBlock ProviderEvent
open Foundation.Slots
open Foundation.Lists (filterMap_concat_none filterMap_concat_some)
open Foundation.Outcome (toOption_bind toOption_map)
open ContentBlockDelta (input? prompt? query? result?)

variable {V : Type}

/-! ## The turn's blocks -/

namespace PendingContentBlock

/-- What a tool result's content becomes when more arrives. -/
def replaceToolResult : ToolResultContent V → ToolResultContent V → ToolResultContent V
  | .text content, .text delta => .text (content ++ delta)
  | _, delta => delta

/-- What a delta makes of the turn's block, if it fits. -/
def delta? : PendingContentBlock V → ContentBlockDelta V → Option (PendingContentBlock V)
  | text value complete, .text delta => some (text (value ++ delta) complete)
  | thinking value signature encryptedContent id provenance redacted complete,
      .thinkingText delta =>
      some (thinking (value ++ delta) signature encryptedContent id provenance redacted complete)
  | thinking value signature encryptedContent id provenance redacted complete,
      .thinkingSignature delta =>
      some (thinking value (some (signature.getD "" ++ delta)) encryptedContent id provenance
        redacted complete)
  | thinking value signature _ id provenance redacted complete,
      .thinkingEncryptedContent encryptedContent =>
      some (thinking value signature (some encryptedContent) id provenance redacted complete)
  | toolUse id name inputJson complete, .toolUseInputJson delta =>
    some (toolUse id name (inputJson ++ delta) complete)
  | toolResult toolUseId content isError complete, .toolResultContent delta =>
    some (toolResult toolUseId (replaceToolResult content delta) isError complete)
  | block, delta => block.applyHostedDelta delta

/-- One event at one block of the turn. -/
def step? : Option (PendingContentBlock V) → BlockEvent V → Option (PendingContentBlock V)
  | _, .started kind => some (ofStart kind)
  | some block, .delta delta => block.delta? delta
  | some block, .stopped => some block.markComplete
  | none, _ => none

end PendingContentBlock

namespace PendingAssistantTurn

def heading (turn : PendingAssistantTurn V) : Heading :=
  ⟨turn.id, turn.model, turn.role, turn.stopped⟩

section Parsing

variable [SerdeJson V]

theorem applyStop_view (turn : PendingAssistantTurn V) (index : Nat)
    (block : PendingContentBlock V) :
    ((turn.applyStop index block).2.blocks, (turn.applyStop index block).2.heading) =
      (turn.blocks.insert index block.markComplete, turn.heading) := by
  cases block with
  | toolUse id name inputJson complete =>
    rw [applyStop]
    cases (SerdeJson.fromStr inputJson : Except String V) <;> rfl
  | _ => rfl

variable (debug : ContentBlockDelta V → String)

theorem apply_toOption (turn : PendingAssistantTurn V) (event : ProviderEvent V) :
    ((turn.apply debug event).toOption.map Prod.snd).map (fun next => (next.blocks, next.heading)) =
      (mapRun PendingContentBlock.step? turn.blocks event.block?.toList).map
        fun blocks => (blocks, turn.heading.after event) := by
  rw [Option.map_map]
  cases event with
  | contentBlockDelta index delta =>
    simp only [apply, block?, toList_some, mapRun]
    cases turn.blocks.get? index with
    | none => rfl
    | some block => cases block <;> cases delta <;> rfl
  | contentBlockStopped index =>
    simp only [apply, block?, toList_some, mapRun]
    cases turn.blocks.get? index with
    | none => rfl
    | some block => exact congrArg some (applyStop_view turn index block)
  | _ => rfl

/-- A turn fed with a whole stream. -/
def applyAll (debug : ContentBlockDelta V → String) : PendingAssistantTurn V →
    List (ProviderEvent V) → Except RuntimeError (PendingAssistantTurn V)
  | turn, [] => .ok turn
  | turn, event :: rest => do
      let (_, next) ← turn.apply debug event
      applyAll debug next rest

/-- The message the runtime reads off a stream. -/
def messageFromStream (debug : ContentBlockDelta V → String) (stream : List (ProviderEvent V)) :
    Except RuntimeError (Message V) := do
  let turn ← applyAll debug {} stream
  turn.toMessage

theorem applyAll_toOption (turn : PendingAssistantTurn V) (stream : List (ProviderEvent V)) :
    (applyAll debug turn stream).toOption =
      Transition.run (fun turn event => (turn.apply debug event).toOption.map Prod.snd) turn
        stream := by
  induction stream generalizing turn with
  | nil => rfl
  | cons event stream ih =>
    rw [applyAll, Transition.run, toOption_bind, bind_map]
    congr 1
    funext result
    exact ih result.2

theorem toMessage_toOption (turn : PendingAssistantTurn V) :
    turn.toMessage.toOption.map Message.content =
      if turn.heading.Complete then (messageContent turn.blocks.entries).toOption else none := by
  obtain ⟨id, model, role, blocks, uses, text, reasoning, stopReason, usage, stopped⟩ := turn
  cases stopped with
  | false => rfl
  | true =>
    cases role with
    | none => rfl
    | some role =>
      simp only [toMessage, Bool.not_true, Bool.false_eq_true, if_false, toOption_map]
      cases messageContent blocks.entries <;> rfl

/-- A message is read when no block refuses an event and it was announced and ended; its content
is read off the blocks. -/
theorem messageFromStream_toOption (stream : List (ProviderEvent V)) :
    (messageFromStream debug stream).toOption.map Message.content =
      (mapRun PendingContentBlock.step? .empty (stream.filterMap block?)).bind
        fun blocks =>
          if (Heading.ofStream stream).Complete then (messageContent blocks.entries).toOption
          else none := by
  rw [messageFromStream, toOption_bind, applyAll_toOption, map_bind]
  refine run_read (apply_toOption debug) ?_
  intro final headings
  have same : final.heading = Heading.ofStream stream := headings
  rw [← same]
  exact toMessage_toOption final

end Parsing

end PendingAssistantTurn

/-! ## Where the assemblers differ -/

/-- The builder's text after these slices. -/
def appended (before : Option String) (slices : List String) : Option String :=
  slices.foldl (fun text slice => some (text.getD "" ++ slice)) before

/-- The turn's text after these slices. -/
def replaced (before : Option String) (slices : List String) : Option String :=
  slices.foldl (fun _ slice => some slice) before

/-- Only the last slice has any text. -/
def OneSlice (before : Option String) (slices : List String) : Prop :=
  slices = [] ∨ ∀ text ∈ before.toList ++ slices.dropLast, text = ""

theorem appended_concat (before : Option String) (slices : List String) (slice : String) :
    appended before (slices ++ [slice]) = some ((appended before slices).getD "" ++ slice) :=
  foldl_concat ..

theorem replaced_concat (before : Option String) (slices : List String) (slice : String) :
    replaced before (slices ++ [slice]) = some slice :=
  foldl_concat ..

theorem appended_eq_empty_iff {before : Option String} {slices : List String} :
    (appended before slices).getD "" = "" ↔ ∀ text ∈ before.toList ++ slices, text = "" := by
  induction slices using List.reverseRecOn with
  | nil => cases before <;> simp [appended]
  | append_singleton slices slice ih =>
    rw [appended_concat, getD_some, String.append_eq_empty_iff, ih]
    simp only [mem_append, mem_singleton, or_imp, forall_and, forall_eq, and_assoc]

theorem appended_eq_replaced_iff {before : Option String} {slices : List String} :
    appended before slices = replaced before slices ↔ OneSlice before slices := by
  rcases eq_nil_or_concat slices with rfl | ⟨front, last, rfl⟩
  · simp [appended, replaced, OneSlice]
  · rw [concat_eq_append, appended_concat, replaced_concat, OneSlice, dropLast_concat,
      ← appended_eq_empty_iff, Option.some.injEq]
    simp

/-- The builder's tool result after these parts. -/
def merged [JsonText V] (parts : List (ToolResultContent V)) : Option (ToolResultContent V) :=
  parts.foldl (fun content part => some (mergeToolResult content part)) none

/-- The turn's tool result after these parts. -/
def overwritten (parts : List (ToolResultContent V)) : ToolResultContent V :=
  parts.foldl replaceToolResult (.text "")

/-- Text comes last only after text. -/
def TextAfterText (parts : List (ToolResultContent V)) : Prop :=
  ∀ front last, parts = front ++ [.text last] → ∀ part ∈ front, ∃ text, part = .text text

section ToolResults

variable [JsonText V] {parts : List (ToolResultContent V)}

theorem merged_concat (parts : List (ToolResultContent V)) (part : ToolResultContent V) :
    merged (parts ++ [part]) = some (mergeToolResult (merged parts) part) :=
  foldl_concat ..

omit [JsonText V] in
theorem overwritten_concat (parts : List (ToolResultContent V)) (part : ToolResultContent V) :
    overwritten (parts ++ [part]) = replaceToolResult (overwritten parts) part :=
  foldl_concat ..

/-- On text alone both append. -/
theorem merged_of_text (texts : ∀ part ∈ parts, ∃ text, part = .text text) :
    (merged parts).getD (.text "") = overwritten parts ∧
      ∃ text, overwritten parts = .text text := by
  induction parts using List.reverseRecOn with
  | nil => exact ⟨rfl, "", rfl⟩
  | append_singleton parts part ih =>
    rw [forall_mem_append, forall_mem_singleton] at texts
    obtain ⟨earlier, delta, rfl⟩ := texts
    obtain ⟨same, text, read⟩ := ih earlier
    rw [merged_concat, overwritten_concat, read]
    rw [read] at same
    refine ⟨?_, text ++ delta, rfl⟩
    cases content : merged parts with
    | none =>
      rw [content, getD_none, ToolResultContent.text.injEq] at same
      simp [← same, mergeToolResult, replaceToolResult]
    | some current =>
      rw [content, getD_some] at same
      rw [same]
      rfl

/-- Once a part is structured, the builder's result stays so. -/
theorem merged_of_structured {value : V} (mem : .structured value ∈ parts) :
    ∃ last, merged parts = some (.structured last) := by
  induction parts using List.reverseRecOn with
  | nil => exact absurd mem not_mem_nil
  | append_singleton parts part ih =>
    rw [merged_concat]
    rcases mem_append.mp mem with earlier | here
    · obtain ⟨last, read⟩ := ih earlier
      rw [read]
      cases part with
      | text delta => exact ⟨mergeStructuredText last delta, rfl⟩
      | structured latest => exact ⟨latest, rfl⟩
    · rw [← mem_singleton.mp here]
      exact ⟨value, rfl⟩

theorem merged_eq_overwritten_iff :
    (merged parts).getD (.text "") = overwritten parts ↔ TextAfterText parts := by
  rcases eq_nil_or_concat parts with rfl | ⟨front, last, rfl⟩
  · simp [merged, overwritten, TextAfterText]
  rw [concat_eq_append]
  cases last with
  | structured value =>
    have equal : merged (front ++ [.structured value]) = some (.structured value) :=
      merged_concat front _
    have overwrites : overwritten (front ++ [.structured value]) = .structured value := by
      rw [overwritten_concat]
      cases overwritten front <;> rfl
    simp [equal, overwrites, TextAfterText]
  | text delta =>
    by_cases texts : ∀ part ∈ front, ∃ text, part = .text text
    · have all : ∀ part ∈ front ++ [.text delta], ∃ text, part = .text text := by
        rw [forall_mem_append, forall_mem_singleton]
        exact ⟨texts, delta, rfl⟩
      refine ⟨fun _ => ?_, fun _ => (merged_of_text all).1⟩
      intro older last split
      rw [(append_inj' split rfl).1] at texts
      exact texts
    · have structured : ∃ value, .structured value ∈ front := by
        push Not at texts
        obtain ⟨part, mem, differs⟩ := texts
        cases part with
        | text text => exact absurd rfl (differs text)
        | structured value => exact ⟨value, mem⟩
      obtain ⟨value, mem⟩ := structured
      obtain ⟨latest, read⟩ := merged_of_structured (mem_append_left [.text delta] mem)
      have overwrites : ∃ text, overwritten (front ++ [.text delta]) = .text text := by
        rw [overwritten_concat]
        cases overwritten front <;> exact ⟨_, rfl⟩
      obtain ⟨text, overwrites⟩ := overwrites
      rw [read, overwrites]
      refine ⟨nofun, fun after => absurd (after front delta rfl) texts⟩

end ToolResults

/-- Whether the two assemblers read the same content off a block. -/
def BlockHistory.ReadAlike (history : BlockHistory V) : Prop :=
  match history.start with
  | .toolResult _ _ content =>
    TextAfterText (content.toList ++ history.deltas.filterMap result?)
  | .hostedToolSearch call =>
    OneSlice call.query (history.deltas.filterMap query?)
  | .imageGeneration call =>
    OneSlice call.revisedPrompt (history.deltas.filterMap prompt?)
  | _ => True

/-! ## Blocks in step -/

/-- The builder's and the turn's block after the same deltas. -/
inductive Alike [JsonText V] (deltas : List (ContentBlockDelta V)) (complete : Bool) :
    ContentBlockStart V → StreamingContentBlock V → PendingContentBlock V → Prop
  | text (value : String) :
      Alike deltas complete .text (.text value complete) (.text value complete)
  | thinking {encrypted id : Option String} {provenance : Option ReasoningProvenance}
      {redacted : Bool} (value : String) (signature latest : Option String) :
      Alike deltas complete (.thinking encrypted id provenance redacted)
        (.thinking value signature latest id provenance redacted complete)
        (.thinking value signature latest id provenance redacted complete)
  | image (source : ImageSource) :
      Alike deltas complete (.image source) (.image source complete) (.image source complete)
  | toolUse {id name input : String}
      (sliced : input = String.join (deltas.filterMap input?)) :
      Alike deltas complete (.toolUse id name) (.toolUse id name input complete)
        (.toolUse id name input complete)
  | toolResult {toolUseId : String} {isError : Bool} {content kept : Option (ToolResultContent V)}
      {latest : ToolResultContent V}
      (merges : kept = merged (content.toList ++ deltas.filterMap result?))
      (overwrites : latest = overwritten (content.toList ++ deltas.filterMap result?)) :
      Alike deltas complete (.toolResult toolUseId isError content)
        (.toolResult toolUseId kept isError complete)
        (.toolResult toolUseId latest isError complete)
  | hostedToolSearch {call : HostedToolSearchCall} {kept latest : Option String}
      (status : Option String)
      (appends : kept = appended call.query (deltas.filterMap query?))
      (replaces : latest = replaced call.query (deltas.filterMap query?)) :
      Alike deltas complete (.hostedToolSearch call)
        (.hostedToolSearch ⟨call.id, status, kept⟩ complete)
        (.hostedToolSearch ⟨call.id, status, latest⟩ complete)
  | hostedWebSearch {call : HostedWebSearchCall} (current : HostedWebSearchCall) :
      Alike deltas complete (.hostedWebSearch call) (.hostedWebSearch current complete)
        (.hostedWebSearch current complete)
  | imageGeneration {call : ImageGenerationCall} {kept latest : Option String} (status : String)
      (result : Option ImageGenerationResult)
      (appends : kept = appended call.revisedPrompt (deltas.filterMap prompt?))
      (replaces : latest = replaced call.revisedPrompt (deltas.filterMap prompt?)) :
      Alike deltas complete (.imageGeneration call)
        (.imageGeneration ⟨call.id, status, kept, result⟩ complete)
        (.imageGeneration ⟨call.id, status, latest, result⟩ complete)

namespace Alike

variable [JsonText V] {debug : ContentBlockDelta V → String} {start : ContentBlockStart V}
  {deltas : List (ContentBlockDelta V)} {complete : Bool} {block : StreamingContentBlock V}
  {pending : PendingContentBlock V}

theorem ofStart (start : ContentBlockStart V) :
    Alike [] false start (.ofStart start) (.ofStart start) := by
  cases start with
  | text => exact .text ""
  | thinking encrypted id provenance redacted => exact .thinking "" none encrypted
  | image source => exact .image source
  | toolUse id name => exact .toolUse rfl
  | toolResult toolUseId isError content =>
    rcases content with _ | text | value
    · exact .toolResult rfl rfl
    · exact .toolResult rfl (by simp [overwritten, replaceToolResult])
    · exact .toolResult rfl rfl
  | hostedToolSearch call => exact .hostedToolSearch call.status rfl rfl
  | hostedWebSearch call => exact .hostedWebSearch call
  | imageGeneration call => exact .imageGeneration call.status call.result rfl rfl

/-- A fitting delta is taken by both and keeps the blocks in step. -/
theorem delta (alike : Alike deltas complete start block pending) {delta : ContentBlockDelta V}
    (fits : start.fits delta) :
    ∃ nextBlock nextPending, (block.applyDelta debug delta).toOption = some nextBlock ∧
      pending.delta? delta = some nextPending ∧
      Alike (deltas ++ [delta]) complete start nextBlock nextPending := by
  cases alike with
  | text value =>
    cases delta with
    | text slice => exact ⟨_, _, rfl, rfl, .text _⟩
    | _ => cases fits
  | thinking value signature latest =>
    cases delta with
    | thinkingText slice | thinkingSignature slice
    | thinkingEncryptedContent value => exact ⟨_, _, rfl, rfl, .thinking _ _ _⟩
    | _ => cases fits
  | image source => cases delta <;> cases fits
  | toolUse sliced =>
    cases delta with
    | toolUseInputJson slice =>
      refine ⟨_, _, rfl, rfl, .toolUse ?_⟩
      rw [filterMap_concat_some (f := input?) rfl, String.join_append, ← sliced]
      simp
    | _ => cases fits
  | toolResult merges overwrites =>
    cases delta with
    | toolResultContent part =>
      refine ⟨_, _, rfl, rfl, .toolResult ?_ ?_⟩
      · rw [filterMap_concat_some (f := result?) rfl, ← append_assoc, merged_concat, ← merges]
      · rw [filterMap_concat_some (f := result?) rfl, ← append_assoc, overwritten_concat,
          ← overwrites]
    | _ => cases fits
  | hostedToolSearch status appends replaces =>
    cases delta with
    | hostedToolSearchQuery slice =>
      refine ⟨_, _, rfl, rfl, .hostedToolSearch _ ?_ ?_⟩
      · rw [filterMap_concat_some (f := query?) rfl, appended_concat, ← appends]
      · rw [filterMap_concat_some (f := query?) rfl, replaced_concat]
    | hostedToolSearchStatus status =>
      refine ⟨_, _, rfl, rfl, .hostedToolSearch _ ?_ ?_⟩
      · rwa [filterMap_concat_none (f := query?) rfl]
      · rwa [filterMap_concat_none (f := query?) rfl]
    | _ => cases fits
  | hostedWebSearch current =>
    cases delta with
    | hostedWebSearchAction action
    | hostedWebSearchStatus status => exact ⟨_, _, rfl, rfl, .hostedWebSearch _⟩
    | _ => cases fits
  | imageGeneration status result appends replaces =>
    cases delta with
    | imageGenerationRevisedPrompt slice =>
      refine ⟨_, _, rfl, rfl, .imageGeneration _ _ ?_ ?_⟩
      · rw [filterMap_concat_some (f := prompt?) rfl, appended_concat, ← appends]
      · rw [filterMap_concat_some (f := prompt?) rfl, replaced_concat]
    | imageGenerationStatus status | imageGenerationResult result =>
      refine ⟨_, _, rfl, rfl, .imageGeneration _ _ ?_ ?_⟩
      · rwa [filterMap_concat_none (f := prompt?) rfl]
      · rwa [filterMap_concat_none (f := prompt?) rfl]
    | _ => cases fits

theorem markComplete (alike : Alike deltas complete start block pending) :
    Alike deltas true start block.markComplete pending.markComplete := by
  cases alike with
  | text value => exact .text value
  | thinking value signature latest => exact .thinking value signature latest
  | image source => exact .image source
  | toolUse sliced => exact .toolUse sliced
  | toolResult merges overwrites => exact .toolResult merges overwrites
  | hostedToolSearch status appends replaces => exact .hostedToolSearch status appends replaces
  | hostedWebSearch current => exact .hostedWebSearch current
  | imageGeneration status result appends replaces =>
    exact .imageGeneration status result appends replaces

theorem isComplete (alike : Alike deltas complete start block pending) :
    block.isComplete = complete ∧ pending.isComplete = complete := by
  cases alike <;> exact ⟨rfl, rfl⟩

end Alike

/-- A block whose deltas fit it and whose input, if it is a tool use, is JSON. -/
structure BlockHistory.Sound [SerdeJson V] (history : BlockHistory V) : Prop where
  fits : ∀ delta ∈ history.deltas, history.start.fits delta
  parses : ∀ id name, history.start = .toolUse id name →
    ∃ input : V, SerdeJson.fromStr (String.join (history.deltas.filterMap input?)) = .ok input

section Histories

variable [JsonText V] [SerdeJson V] (debug : ContentBlockDelta V → String)
  {history : BlockHistory V}

omit [SerdeJson V] in
theorem Alike.run (deltas : List (ContentBlockDelta V)) {start : ContentBlockStart V}
    (fits : ∀ delta ∈ deltas, start.fits delta) :
    ∃ block pending,
      slotRun (step? debug) none (.started start :: deltas.map .delta) = some (some block) ∧
      slotRun PendingContentBlock.step? none
        (.started start :: deltas.map .delta) = some (some pending) ∧
      Alike deltas false start block pending := by
  induction deltas using List.reverseRecOn with
  | nil => exact ⟨_, _, rfl, rfl, .ofStart start⟩
  | append_singleton deltas delta ih =>
    rw [forall_mem_append, forall_mem_singleton] at fits
    obtain ⟨block, pending, built, kept, alike⟩ := ih fits.1
    obtain ⟨nextBlock, nextPending, applied, taken, next⟩ := alike.delta fits.2
    refine ⟨nextBlock, nextPending, ?_, ?_, next⟩
    · rw [map_append, ← cons_append, slotRun_append, built, bind_some]
      exact slotRun_cons_eq_some_iff.mpr ⟨nextBlock, applied, rfl⟩
    · rw [map_append, ← cons_append, slotRun_append, kept, bind_some]
      exact slotRun_cons_eq_some_iff.mpr ⟨nextPending, taken, rfl⟩

/-- What the assemblers read off blocks in step, and when it is the same. -/
theorem Alike.contents {block : StreamingContentBlock V} {pending : PendingContentBlock V}
    (alike : Alike history.deltas true history.start block pending) (sound : history.Sound) :
    ∃ built read, block.tryIntoContentBlock = .ok built ∧ pending.toContentBlock = .ok read ∧
      (read = built ↔ history.ReadAlike) := by
  obtain ⟨start, deltas⟩ := history
  cases alike with
  | toolUse sliced =>
    obtain ⟨input, parsed⟩ := sound.parses _ _ rfl
    rw [← sliced] at parsed
    simp only [tryIntoContentBlock, toContentBlock, parsed]
    exact ⟨_, _, rfl, rfl, iff_of_true rfl trivial⟩
  | toolResult merges overwrites =>
    refine ⟨_, _, rfl, rfl, ?_⟩
    change _ ↔ TextAfterText _
    rw [← merged_eq_overwritten_iff, ← merges, ← overwrites]
    simp [eq_comm]
  | hostedToolSearch status appends replaces | imageGeneration status result appends replaces =>
    refine ⟨_, _, rfl, rfl, ?_⟩
    change _ ↔ OneSlice _ _
    rw [← appended_eq_replaced_iff, ← appends, ← replaces]
    simp [eq_comm]
  | _ => exact ⟨_, _, rfl, rfl, iff_of_true rfl trivial⟩

/-- A block with a sound history, as the two assemblers hold it after its stop. -/
def Finished (stream : List (ProviderEvent V)) (index : Nat) (pending : PendingContentBlock V)
    (block : StreamingContentBlock V) : Prop :=
  ∃ history : BlockHistory V, blockEvents index stream = history.events ∧ history.Sound ∧
    Alike history.deltas true history.start block pending

theorem Alike.finish (sound : history.Sound) :
    ∃ block pending,
      slotRun (step? debug) none history.events = some (some block) ∧
      slotRun PendingContentBlock.step? none history.events = some (some pending) ∧
      Alike history.deltas true history.start block pending := by
  obtain ⟨block, pending, built, kept, alike⟩ := Alike.run debug _ sound.fits
  refine ⟨block.markComplete, pending.markComplete, ?_, ?_, alike.markComplete⟩
  · rw [BlockHistory.events, ← cons_append, slotRun_append, built]
    rfl
  · rw [BlockHistory.events, ← cons_append, slotRun_append, kept]
    rfl

omit [JsonText V] in
theorem PendingAssistantTurn.messageContent_cons {index : Nat} {pending : PendingContentBlock V}
    {rest : List (Nat × PendingContentBlock V)} {content : ContentBlock V}
    (complete : pending.isComplete) (read : pending.toContentBlock = .ok content) :
    messageContent ((index, pending) :: rest) = (messageContent rest).map (content :: ·) := by
  cases pending with
  | toolUse id name inputJson done =>
    simp only [PendingContentBlock.isComplete] at complete
    simp only [toContentBlock] at read
    cases parsed : (SerdeJson.fromStr inputJson : Except String V) with
    | error error =>
      rw [parsed] at read
      cases read
    | ok input =>
      rw [parsed] at read
      cases read
      simp [messageContent, PendingContentBlock.isComplete, complete, parsed]
  | _ =>
    cases read
    rw [messageContent.eq_def]
    simp only [complete]
    rfl

omit [JsonText V] in
theorem StreamingResponseBuilder.buildContent_cons {index : Nat} {block : StreamingContentBlock V}
    {rest : List (Nat × StreamingContentBlock V)} {content : ContentBlock V}
    (complete : block.isComplete) (read : block.tryIntoContentBlock = .ok content) :
    buildContent ((index, block) :: rest) = (buildContent rest).map (content :: ·) := by
  rw [buildContent, complete, read]
  rfl

/-- The contents read off finished blocks are the same when each block's are. -/
theorem contents_of_finished {stream : List (ProviderEvent V)}
    {pendings : List (Nat × PendingContentBlock V)} {blocks : List (Nat × StreamingContentBlock V)}
    (finished : List.Forall₂ (fun pending block => pending.1 = block.1 ∧
      Finished stream pending.1 pending.2 block.2) pendings blocks) :
    ∃ read built, PendingAssistantTurn.messageContent pendings = .ok read ∧
      StreamingResponseBuilder.buildContent blocks = .ok built ∧
      (read = built ↔ ∀ entry ∈ pendings, ∀ history : BlockHistory V,
        blockEvents entry.1 stream = history.events → history.ReadAlike) := by
  induction finished with
  | nil => exact ⟨[], [], rfl, rfl, by simp⟩
  | cons first others ih =>
    rename_i pending block pendings blocks
    obtain ⟨-, history, events, sound, alike⟩ := first
    obtain ⟨content, kept, built, read, same⟩ := alike.contents sound
    obtain ⟨reads, builts, readRest, builtRest, sameRest⟩ := ih
    refine ⟨kept :: reads, content :: builts, ?_, ?_, ?_⟩
    · rw [PendingAssistantTurn.messageContent_cons alike.isComplete.2 read, readRest]
      rfl
    · rw [StreamingResponseBuilder.buildContent_cons alike.isComplete.1 built, builtRest]
      rfl
    · rw [List.cons.injEq, same, sameRest, forall_mem_cons]
      refine and_congr_left fun _ => ?_
      constructor
      · intro readAlike other otherEvents
        rwa [← BlockHistory.events_inj.mp (events.symm.trans otherEvents)]
      · intro all
        exact all history events

/-- Each block index is started once, then given deltas that fit, then stopped
once, and the input of every tool use is JSON. -/
def WellFormed (stream : List (ProviderEvent V)) : Prop :=
  ∀ index, blockEvents index stream = [] ∨
    ∃ history : BlockHistory V, blockEvents index stream = history.events ∧ history.Sound

/-- On a well-formed stream no block refuses an event, and the blocks the two
assemblers end with are in step. -/
theorem WellFormed.finished {stream : List (ProviderEvent V)} (wellFormed : WellFormed stream) :
    ∃ blocks pendings,
      mapRun (step? debug) .empty (stream.filterMap block?) = some blocks ∧
      mapRun PendingContentBlock.step? .empty (stream.filterMap block?) = some pendings ∧
      ∀ index, Option.Rel (Finished stream index) (pendings.get? index) (blocks.get? index) := by
  have slots : ∀ index, ∃ block? pending?,
      slotRun (step? debug) none (blockEvents index stream) = some block? ∧
      slotRun PendingContentBlock.step? none (blockEvents index stream) = some pending? ∧
      Option.Rel (Finished stream index) pending? block? := by
    intro index
    rcases wellFormed index with unused | ⟨history, events, sound⟩
    · rw [unused]
      exact ⟨none, none, rfl, rfl, .none⟩
    · obtain ⟨block, pending, built, kept, alike⟩ := Alike.finish debug sound
      rw [events]
      exact ⟨some block, some pending, built, kept, .some ⟨history, events, sound, alike⟩⟩
  obtain ⟨blocks, ran⟩ : ∃ blocks, mapRun (step? debug) .empty
      (stream.filterMap block?) = some blocks := by
    apply exists_mapRun
    intro index
    obtain ⟨block?, pending?, built, -, -⟩ := slots index
    exact ⟨block?, built⟩
  obtain ⟨pendings, kept⟩ : ∃ pendings, mapRun PendingContentBlock.step? .empty
      (stream.filterMap block?) = some pendings := by
    apply exists_mapRun
    intro index
    obtain ⟨block?, pending?, -, kept, -⟩ := slots index
    exact ⟨pending?, kept⟩
  refine ⟨blocks, pendings, ran, kept, ?_⟩
  intro index
  obtain ⟨block?, pending?, built, taken, related⟩ := slots index
  have sameBlock := (slotRun_of_mapRun ran index).symm.trans built
  have samePending := (slotRun_of_mapRun kept index).symm.trans taken
  rwa [Option.some.inj sameBlock, Option.some.inj samePending]

/-- Both assemblers accept the same streams, those with an announced and ended message, and
their contents are the same exactly when every block of an accepted stream is read alike. -/
theorem assemblers_agree_iff {stream : List (ProviderEvent V)} (wellFormed : WellFormed stream) :
    ((PendingAssistantTurn.messageFromStream debug stream).toOption.isSome =
        (collectResponseFromStream debug (stream.map .ok)).toOption.isSome) ∧
      ((PendingAssistantTurn.messageFromStream debug stream).toOption.map Message.content =
          (collectResponseFromStream debug (stream.map .ok)).toOption.map Response.content ↔
        ((∃ id model role, .messageStarted id model role ∈ stream) ∧ .messageStopped ∈ stream →
          ∀ index (history : BlockHistory V),
            blockEvents index stream = history.events → history.ReadAlike)) := by
  obtain ⟨blocks, pendings, ran, kept, related⟩ := wellFormed.finished debug
  obtain ⟨read, built, reads, builds, same⟩ :=
    contents_of_finished (OrderedMap.forall₂_entries related)
  have left := PendingAssistantTurn.messageFromStream_toOption debug stream
  have right := StreamingResponseBuilder.collect_toOption debug stream
  rw [kept, bind_some, reads] at left
  rw [ran, bind_some, builds] at right
  have everyBlock : (∀ entry ∈ pendings.entries, ∀ history : BlockHistory V,
      blockEvents entry.1 stream = history.events → history.ReadAlike) ↔
      ∀ index (history : BlockHistory V),
        blockEvents index stream = history.events → history.ReadAlike := by
    refine ⟨fun all index history events => ?_, fun all entry _ => all entry.1⟩
    have slot := slotRun_of_mapRun kept index
    rw [← blockEvents, events] at slot
    obtain ⟨pending, found⟩ :=
      isSome_iff_exists.mp (slotRun_isSome slot (.inr (cons_ne_nil _ _)))
    exact all (index, pending) (OrderedMap.mem_of_get? found) history events
  rw [← isSome_map (f := Message.content), left, ← isSome_map (f := Response.content),
    right, ← Heading.role_ofStream_iff, ← Heading.stopped_ofStream_iff, and_comm (a := _ = true),
    ← everyBlock, ← same]
  by_cases complete : (Heading.ofStream stream).Complete
  · rw [if_pos complete, if_pos complete]
    refine ⟨rfl, fun equal _ => Option.some.inj equal, fun accepted => ?_⟩
    exact congrArg some (accepted complete)
  · rw [if_neg complete, if_neg complete]
    exact ⟨rfl, iff_of_true rfl fun accepted => absurd accepted complete⟩

end Histories

/-- A hosted search whose query arrives in these slices. -/
def searchStream (slices : List String) : List (ProviderEvent Unit) :=
  [.messageStarted "reply" "model" .assistant,
    .contentBlockStarted 0 (.hostedToolSearch ⟨"search", none, none⟩)] ++
  slices.map (fun slice => .contentBlockDelta 0 (.hostedToolSearchQuery slice)) ++
  [.contentBlockStopped 0, .messageStopped]

def searchHistory (slices : List String) : BlockHistory Unit :=
  ⟨.hostedToolSearch ⟨"search", none, none⟩, slices.map .hostedToolSearchQuery⟩

theorem blockEvents_search (slices : List String) (index : Nat) :
    blockEvents index (searchStream slices) =
      if index = 0 then (searchHistory slices).events else [] := by
  have deltas : addressedTo index ((slices.map fun slice =>
      (.contentBlockDelta 0 (.hostedToolSearchQuery slice) : ProviderEvent Unit)).filterMap
        block?) =
      if index = 0 then (searchHistory slices).deltas.map .delta else [] := by
    induction slices with
    | nil => simp [searchHistory]
    | cons slice slices ih =>
      simp only [addressedTo, searchHistory, block?, map_cons, filterMap_cons] at ih ⊢
      rw [ih]
      cases index <;> simp
  rw [blockEvents, searchStream, filterMap_append, filterMap_append, addressedTo_append,
    addressedTo_append, deltas]
  cases index <;> rfl

theorem wellFormed_search (slices : List String) : WellFormed (searchStream slices) := by
  intro index
  rw [blockEvents_search]
  split
  · refine .inr ⟨searchHistory slices, rfl, ?_, nofun⟩
    intro delta mem
    obtain ⟨slice, -, rfl⟩ := mem_map.mp mem
    rfl
  · exact .inl rfl

/-- A query in two slices: the builder has it whole, the turn has the second. -/
theorem sliced_query_read_apart :
    WellFormed (searchStream ["wea", "ther"]) ∧
      (PendingAssistantTurn.messageFromStream (fun _ => "")
        (searchStream ["wea", "ther"])).toOption.map Message.content =
          some [.hostedToolSearch ⟨"search", none, some "ther"⟩] ∧
      (collectResponseFromStream (fun _ => "")
        ((searchStream ["wea", "ther"]).map .ok)).toOption.map Response.content =
          some [.hostedToolSearch ⟨"search", none, some "weather"⟩] :=
  ⟨wellFormed_search _, by decide +kernel, by decide +kernel⟩

theorem whole_query_read_alike :
    WellFormed (searchStream ["weather"]) ∧
      (PendingAssistantTurn.messageFromStream (fun _ => "")
        (searchStream ["weather"])).toOption.map Message.content =
      (collectResponseFromStream (fun _ => "")
        ((searchStream ["weather"]).map .ok)).toOption.map Response.content := by
  refine ⟨wellFormed_search _, (assemblers_agree_iff _ (wellFormed_search _)).2.mpr ?_⟩
  intro _ index history events
  rw [blockEvents_search] at events
  split at events
  · rw [← BlockHistory.events_inj.mp events]
    exact .inr (by simp [searchHistory, query?])
  · cases events

end Mentra
