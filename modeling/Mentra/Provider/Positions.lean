import Mentra.Provider.Blocks
import Mentra.Provider.Gemini

/-!
# The Gemini decoder, position by position

What the decoder sends about one block depends on the parts at that position and
on when everything is closed, and on nothing else: the events about a position
are those of a small machine that is driven by what happens at the position.
-/

namespace Mentra.Gemini

open Foundation List StreamState ProviderEvent
open Foundation.Emission
open Foundation.Slots

variable {V : Type}

/-! ## What happens at a position -/

def Candidate.parts (candidate : Candidate V) : List (Part V) :=
  (candidate.content.map Content.parts).getD []

/-- The parts that are read from a chunk, those of its first candidate. -/
def StreamChunk.parts (chunk : StreamChunk V) : List (Part V) :=
  match chunk.candidates with
  | candidate :: _ => candidate.parts
  | [] => []

/-- Whether a chunk closes all blocks. -/
def StreamChunk.closes (chunk : StreamChunk V) : Bool :=
  match chunk.candidates with
  | candidate :: _ => candidate.finishReason.isSome
  | [] => chunk.promptFeedback.isSome

/-- Text or a call arrives, or everything is closed. -/
inductive Signal (V : Type)
  | text (text : String)
  | call (call : FunctionCall V)
  | close

def Part.signal? (part : Part V) : Option (Signal V) :=
  match part.text with
  | some text => some (.text text)
  | none => part.functionCall.map .call

/-- What happens at a position in one chunk. -/
def StreamChunk.signalsAt (index : Nat) (chunk : StreamChunk V) : List (Signal V) :=
  (chunk.parts[index]?.bind Part.signal?).toList ++ if chunk.closes then [.close] else []

/-- What happens at a position in a stream of chunks. -/
def signalsAt (index : Nat) (chunks : List (StreamChunk V)) : List (Signal V) :=
  chunks.flatMap (StreamChunk.signalsAt index)

/-! ## The decoder at one position -/

/-- What the decoder keeps for a position. -/
structure Slot where
  opened : Bool := false
  text : String := ""
  tool : String := ""

/-- What the decoder sends about a position. -/
def Slot.take [SerdeJson V] (toolId : String → String) (slot : Slot) :
    Signal V → List (BlockEvent V) × Slot
  | .text text =>
    let merged := mergeChunk slot.text text
    ((if slot.opened then [] else [.started .text]) ++
        (merged.1.map fun delta => .delta (.text delta)).toList,
      { slot with opened := true, text := merged.2 })
  | .call call =>
    let merged := mergeChunk slot.tool (SerdeJson.print call.args)
    ((if slot.opened then [] else [.started (.toolUse (toolId call.name) call.name)]) ++
        (merged.1.map fun delta => .delta (.toolUseInputJson delta)).toList,
      { slot with opened := true, tool := merged.2 })
  | .close => (if slot.opened then [.stopped] else [], {})

namespace StreamState

def slot (state : StreamState) (index : Nat) : Slot where
  opened := (state.openBlocks.get? index).isSome
  text := (state.textSnapshots.get? index).getD ""
  tool := (state.toolSnapshots.get? index).getD ""

def toolId (state : StreamState) (index : Nat) (name : String) : String :=
  state.responseId.getD ("gemini-" ++ state.requestModel) ++ "-" ++ toString index ++ "-" ++ name

end StreamState

/-- The events about a position and the slot they leave are those of the slot
machine on these signals. -/
def Follows [SerdeJson V] (toolId : String → String) (index : Nat) (state : StreamState)
    (signals : List (Signal V)) (sent : List (ProviderEvent V) × StreamState) : Prop :=
  emit (Slot.take toolId) (state.slot index) signals = (blockEvents index sent.1, sent.2.slot index)

section Events

variable (index other : Nat)

@[simp]
theorem blockEvents_started (kind : ContentBlockStart V) (events : List (ProviderEvent V)) :
    blockEvents other (.contentBlockStarted index kind :: events) =
      (if index = other then [.started kind] else []) ++ blockEvents other events := by
  by_cases same : index = other <;> simp [blockEvents, addressedTo, block?, same]

@[simp]
theorem blockEvents_delta (delta : Option String) (make : String → ContentBlockDelta V) :
    blockEvents other (delta.map fun delta => .contentBlockDelta index (make delta)).toList =
      if index = other then (delta.map fun delta => .delta (make delta)).toList else [] := by
  cases delta with
  | none => simp [blockEvents]
  | some delta =>
    by_cases same : index = other <;>
      simp [blockEvents, addressedTo, block?, same]

end Events

section Parts

variable [SerdeJson V] (state : StreamState) (index : Nat) (part : Part V)

/-- A part leaves alone what other positions have. -/
theorem takePart_elsewhere {other : Nat} (differs : other ≠ index) (toolId : String → String) :
    Follows toolId other state [] (state.takePart index part) := by
  rw [Follows, emit_nil, takePart]
  cases part.text with
  | some text =>
    cases opened : state.openBlocks.get? index <;>
      simp [ensureTextBlockStarted, opened, slot, differs.symm,
        OrderedMap.get?_insert_of_ne differs]
  | none =>
    cases part.functionCall with
    | some call =>
      cases opened : state.openBlocks.get? index <;>
        simp [ensureToolBlockStarted, opened, slot, differs.symm,
          OrderedMap.get?_insert_of_ne differs]
    | none => rfl

theorem takePart_here :
    Follows (state.toolId index) index state part.signal?.toList (state.takePart index part) := by
  rw [Follows, takePart, Part.signal?]
  cases part.text with
  | some text =>
    cases opened : state.openBlocks.get? index <;>
      simp [ensureTextBlockStarted, opened, slot, emit, Slot.take]
  | none =>
    cases part.functionCall with
    | some call =>
      cases opened : state.openBlocks.get? index <;>
        simp [ensureToolBlockStarted, opened, slot, emit, Slot.take, toolId]
    | none => rfl

theorem takePart_keeps : ∃ openBlocks textSnapshots toolSnapshots,
    (state.takePart index part).2 = { state with openBlocks, textSnapshots, toolSnapshots } := by
  rw [takePart]
  cases part.text with
  | some text =>
    cases opened : state.openBlocks.get? index <;>
      simp only [ensureTextBlockStarted, opened] <;> exact ⟨_, _, _, rfl⟩
  | none =>
    cases part.functionCall with
    | some call =>
      cases opened : state.openBlocks.get? index <;>
        simp only [ensureToolBlockStarted, opened] <;> exact ⟨_, _, _, rfl⟩
    | none => exact ⟨_, _, _, rfl⟩

theorem toolId_takePart : (state.takePart index part).2.toolId = state.toolId := by
  obtain ⟨openBlocks, textSnapshots, toolSnapshots, kept⟩ := takePart_keeps state index part
  rw [kept]
  rfl

end Parts

/-! ## Chunks -/

section Chunks

variable [SerdeJson V] {toolId : String → String} {index : Nat} {state : StreamState}

theorem Follows.append {first second : List (Signal V)}
    {sent others : List (ProviderEvent V) × StreamState}
    (follows : Follows toolId index state first sent)
    (goesOn : Follows toolId index sent.2 second others) :
    Follows toolId index state (first ++ second) (sent.1 ++ others.1, others.2) := by
  rw [Follows] at *
  rw [emit_append, follows, goesOn, blockEvents_append]

variable {events : List (ProviderEvent V)}

omit [SerdeJson V] in
theorem blockEvents_silent
    (silent : events.filterMap block? = []) : blockEvents index events = [] := by
  rw [blockEvents, silent]
  rfl

section Silent

variable {signals : List (Signal V)} {events : List (ProviderEvent V)}
  {sent : List (ProviderEvent V) × StreamState}

theorem Follows.silent_append (follows : Follows toolId index state signals sent)
    (silent : events.filterMap block? = []) :
    Follows toolId index state signals (events ++ sent.1, sent.2) := by
  rw [Follows] at *
  rw [follows, blockEvents_append, blockEvents_silent silent]
  rfl

theorem Follows.append_silent (follows : Follows toolId index state signals sent)
    (silent : events.filterMap block? = []) :
    Follows toolId index state signals (sent.1 ++ events, sent.2) := by
  rw [Follows] at *
  rw [follows, blockEvents_append, blockEvents_silent silent, append_nil]

end Silent

theorem takeParts_follows (state : StreamState) (offset : Nat) (parts : List (Part V))
    (index : Nat) :
    Follows (state.toolId index) index state
      (if offset ≤ index then (parts[index - offset]?.bind Part.signal?).toList else [])
      (state.takeParts offset parts) := by
  induction parts generalizing state offset with
  | nil => simp [takeParts, Follows, blockEvents]
  | cons part parts ih =>
    have later := ih (state.takePart offset part).2 (offset + 1)
    rw [toolId_takePart] at later
    rcases lt_trichotomy index offset with before | here | after
    · rw [if_neg (by omega)] at later ⊢
      exact (takePart_elsewhere state offset part (by omega) _).append later
    · subst here
      rw [if_neg (by omega)] at later
      have both := (takePart_here state index part).append later
      rw [append_nil] at both
      rw [if_pos le_rfl, Nat.sub_self]
      exact both
    · rw [if_pos (by omega)] at later ⊢
      rw [show index - offset = index - (offset + 1) + 1 by omega, getElem?_cons_succ]
      exact (takePart_elsewhere state offset part (by omega) _).append later

theorem stop_follows (toolId : String → String) (index : Nat) (state : StreamState)
    (reason : String) (usage : Option TokenUsage) :
    Follows (V := V) toolId index state [.close] (state.stop reason usage) := by
  have closed : blockEvents index (state.openBlocks.entries.map fun entry =>
      (.contentBlockStopped entry.1 : ProviderEvent V)) =
        if (state.openBlocks.get? index).isSome then [.stopped] else [] := by
    have stops : (state.openBlocks.entries.map fun entry =>
        (.contentBlockStopped entry.1 : ProviderEvent V)).filterMap block? =
          state.openBlocks.entries.map fun entry => (entry.1, .stopped) := by
      simp [filterMap_map, block?, Function.comp_def]
    have addressed : addressedTo index (state.openBlocks.entries.map fun entry =>
        (entry.1, (.stopped : BlockEvent V))) =
          (addressedTo index state.openBlocks.entries).map fun _ => .stopped := by
      simp only [addressedTo, filterMap_map, map_filterMap]
      congr 1
      funext entry
      simp only [Function.comp_apply]
      split <;> rfl
    rw [blockEvents, stops, addressed, addressedTo_entries]
    cases state.openBlocks.get? index <;> rfl
  have close : Follows (V := V) toolId index state [.close] state.closeAllBlocks := by
    simp only [Follows, emit, Slot.take, append_nil, closeAllBlocks, closed]
    rfl
  exact close.append_silent rfl

theorem Follows.of_slot {other : StreamState} {signals : List (Signal V)}
    {sent : List (ProviderEvent V) × StreamState}
    (follows : Follows toolId index other signals sent)
    (same : other.slot index = state.slot index) :
    Follows toolId index state signals sent := by
  rw [Follows] at *
  rw [← same, follows]

theorem slot_updateUsage (state : StreamState) (usage : Option TokenUsage) (index : Nat) :
    (state.updateUsage usage).2.slot index = state.slot index := by
  cases usage <;> rfl

omit [SerdeJson V] in
theorem slot_ensureMessageStarted (state : StreamState) (chunk : StreamChunk V) (index : Nat) :
    (state.ensureMessageStarted chunk).2.slot index = state.slot index := by
  rw [ensureMessageStarted]
  split <;> rfl

omit [SerdeJson V] in
theorem block?_ensureMessageStarted (state : StreamState) (chunk : StreamChunk V) :
    (state.ensureMessageStarted chunk).1.toList.filterMap block? = [] := by
  rw [ensureMessageStarted]
  split <;> rfl

theorem takeContent_follows (state : StreamState) (content : Option (Content V)) (index : Nat) :
    Follows (state.toolId index) index state
      (((content.map Content.parts).getD [])[index]?.bind Part.signal?).toList
      (state.takeContent content) := by
  cases content with
  | some content => exact takeParts_follows state 0 content.parts index
  | none => rfl

theorem takeCandidate_follows (state : StreamState) (candidate : Candidate V)
    (usage changed : Option TokenUsage) (index : Nat) :
    Follows (state.toolId index) index state
      ((candidate.parts[index]?.bind Part.signal?).toList ++
        if candidate.finishReason.isSome then [.close] else [])
      (state.takeCandidate candidate usage changed) := by
  have parts := takeContent_follows state candidate.content index
  rw [takeCandidate]
  generalize state.takeContent candidate.content = sent at parts ⊢
  cases candidate.finishReason with
  | some reason => exact parts.append (stop_follows _ index sent.2 reason usage)
  | none =>
    rw [Option.isSome_none, if_neg nofun, append_nil]
    cases changed with
    | some usage => exact parts.append_silent (by rfl)
    | none => exact parts

/-- What a chunk without an error sends. -/
def StreamState.advance (state : StreamState) (chunk : StreamChunk V) :
    List (ProviderEvent V) × StreamState :=
  (state.takeChunk chunk).toOption.getD ([], state)

variable {chunk : StreamChunk V}

theorem takeChunk_eq_advance (fine : chunk.error = none)
    (state : StreamState) : state.takeChunk chunk = .ok (state.advance chunk) := by
  rw [StreamState.advance]
  suffices ok : ∃ sent, state.takeChunk chunk = .ok sent by
    obtain ⟨sent, taken⟩ := ok
    rw [taken]
    rfl
  simp only [takeChunk, fine]
  cases chunk.candidates with
  | cons candidate others => exact ⟨_, rfl⟩
  | nil =>
    cases chunk.promptFeedback with
    | some feedback | none => exact ⟨_, rfl⟩

/-- What a chunk sends about a position is what the slot machine sends on what
happens there. -/
theorem advance_follows (fine : chunk.error = none) (state : StreamState) (index : Nat) :
    ∃ toolId, Follows toolId index state (chunk.signalsAt index) (state.advance chunk) := by
  obtain ⟨candidates, promptFeedback, usageMetadata, responseId, modelVersion, error⟩ := chunk
  obtain rfl : error = none := fine
  have usage := slot_updateUsage state (usageMetadata.bind UsageMetadata.toTokenUsage) index
  cases candidates with
  | cons candidate others =>
    exact ⟨_, (((takeCandidate_follows _ candidate _ _ index).of_slot
      (slot_ensureMessageStarted _ _ index)).of_slot usage).silent_append
      (block?_ensureMessageStarted _ _)⟩
  | nil =>
    cases promptFeedback with
    | some feedback =>
      exact ⟨id, ((((stop_follows id index _ _ _).of_slot (slot_updateUsage _ _ index)).of_slot
        (slot_ensureMessageStarted _ _ index)).of_slot usage).silent_append
        (block?_ensureMessageStarted _ _)⟩
    | none => exact ⟨id, Prod.ext rfl usage.symm⟩

/-! ## Starts and stops of the message -/

theorem started_updateUsage (state : StreamState) (usage : Option TokenUsage) :
    (state.updateUsage usage).2.started = state.started := by
  cases usage <;> rfl

/-- A message that is started was announced. -/
def Announced (events : List (ProviderEvent V)) (state : StreamState) : Prop :=
  state.started = true → ∃ id model role, .messageStarted id model role ∈ events

omit [SerdeJson V] in
theorem announced_ensureMessageStarted {state : StreamState}
    (announced : Announced events state) (chunk : StreamChunk V) :
    ∃ id model role, .messageStarted id model role ∈
      events ++ (state.ensureMessageStarted chunk).1.toList := by
  by_cases started : state.started = true
  · obtain ⟨id, model, role, mem⟩ := announced started
    exact ⟨id, model, role, mem_append_left _ mem⟩
  · rw [ensureMessageStarted, if_neg started]
    exact ⟨_, _, _, mem_append_right _ mem_cons_self⟩

/-- A chunk with a candidate or with prompt feedback announces the message. -/
theorem advance_announces {state : StreamState} (announced : Announced events state)
    (fine : chunk.error = none) (answers : chunk.candidates ≠ [] ∨ chunk.promptFeedback ≠ none) :
    ∃ id model role, .messageStarted id model role ∈ events ++ (state.advance chunk).1 := by
  have updated : Announced events
      (state.updateUsage (chunk.usageMetadata.bind UsageMetadata.toTokenUsage)).2 := by
    intro started
    exact announced (started_updateUsage state _ ▸ started)
  obtain ⟨id, model, role, mem⟩ := announced_ensureMessageStarted updated chunk
  refine ⟨id, model, role, ?_⟩
  obtain ⟨candidates, promptFeedback, usageMetadata, responseId, modelVersion, error⟩ := chunk
  obtain rfl : error = none := fine
  suffices starts : ∃ others, (state.advance (V := V)
      ⟨candidates, promptFeedback, usageMetadata, responseId, modelVersion, none⟩).1 =
        ((state.updateUsage (usageMetadata.bind UsageMetadata.toTokenUsage)).2.ensureMessageStarted
          ⟨candidates, promptFeedback, usageMetadata, responseId, modelVersion, none⟩).1.toList ++
            others by
    obtain ⟨others, sent⟩ := starts
    rw [sent, ← append_assoc]
    exact mem_append_left _ mem
  cases candidates with
  | cons candidate others => exact ⟨_, rfl⟩
  | nil =>
    cases promptFeedback with
    | some feedback => exact ⟨_, rfl⟩
    | none => simp at answers

theorem announced_advance (events : List (ProviderEvent V))
    (state : StreamState) (chunk : StreamChunk V) (announced : Announced events state) :
    Announced (events ++ (state.advance chunk).1) (state.advance chunk).2 := by
  intro started
  cases failed : chunk.error with
  | some error =>
    have nothing : state.advance chunk = ([], state) := by
      simp [StreamState.advance, takeChunk, failed, Except.toOption]
    rw [nothing] at started ⊢
    rw [append_nil]
    exact announced started
  | none =>
    by_cases answers : chunk.candidates ≠ [] ∨ chunk.promptFeedback ≠ none
    · exact advance_announces announced failed answers
    · obtain ⟨candidates, promptFeedback, usageMetadata, responseId, modelVersion, error⟩ := chunk
      simp only [not_or, not_not] at answers
      obtain ⟨rfl, rfl⟩ := answers
      obtain rfl : error = none := failed
      obtain ⟨id, model, role, mem⟩ := announced (started_updateUsage state _ ▸ started)
      exact ⟨id, model, role, mem_append_left _ mem⟩

/-- Whether a chunk has a finish reason. -/
def StreamChunk.finishes (chunk : StreamChunk V) : Bool :=
  chunk.candidates.head?.any fun candidate => candidate.finishReason.isSome

omit [SerdeJson V] in
theorem StreamChunk.closes_of_finishes (finishes : chunk.finishes) : chunk.closes := by
  obtain ⟨candidates, promptFeedback, usageMetadata, responseId, modelVersion, error⟩ := chunk
  cases candidates with
  | cons candidate others => exact finishes
  | nil => cases finishes

theorem advance_finishes (fine : chunk.error = none)
    (finishes : chunk.finishes) (state : StreamState) :
    (state.advance chunk).2.stopped = true ∧ .messageStopped ∈ (state.advance chunk).1 := by
  obtain ⟨candidates, promptFeedback, usageMetadata, responseId, modelVersion, error⟩ := chunk
  obtain rfl : error = none := fine
  cases candidates with
  | cons candidate others =>
    obtain ⟨content, finishReason⟩ := candidate
    cases finishReason with
    | some reason =>
      refine ⟨rfl, mem_append_right _ (mem_append_right _ ?_)⟩
      exact mem_append_right _ (by simp)
    | none => cases finishes
  | nil => cases finishes

/-- A stream that ends with a finish reason is a complete message. -/
theorem complete_emit {chunks : List (StreamChunk V)} {last : StreamChunk V}
    (fine : ∀ chunk ∈ chunks ++ [last], chunk.error = none) (finishes : last.finishes)
    (requestModel : String) :
    (Heading.ofStream (emit StreamState.advance { requestModel } (chunks ++ [last])).1).Complete ∧
      (emit StreamState.advance { requestModel } (chunks ++ [last])).2.stopped = true := by
  have fineLast := fine last (by simp)
  have initial : Announced (V := V) [] { requestModel } := by
    intro started
    cases started
  have announced := emit_keeps announced_advance initial chunks
  have answers : last.candidates ≠ [] := by
    intro none
    simp [StreamChunk.finishes, none] at finishes
  have starts := advance_announces announced fineLast (.inl answers)
  have stops := advance_finishes fineLast finishes
    (emit StreamState.advance { requestModel } chunks).2
  rw [emit_append]
  refine ⟨⟨Heading.stopped_ofStream_iff.mpr ?_, Heading.role_ofStream_iff.mpr ?_⟩, stops.1⟩
  · exact mem_append_right _ (mem_append_left _ stops.2)
  · obtain ⟨id, model, role, mem⟩ := starts
    exact ⟨id, model, role, by simpa [emit] using mem⟩

end Chunks

end Mentra.Gemini
