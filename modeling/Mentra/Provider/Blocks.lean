import Mentra.Foundation.Transition
import Mentra.Provider.Response

/-!
# A stream, block by block

The builder of a response notes what the message-level events say and keeps one machine for
each block index, driven by the events that name the index.  It accepts exactly when no
machine refuses and the message was announced and ended.
-/

namespace Mentra

open Foundation Option List Transition StreamingContentBlock
open Foundation.Slots
open Foundation.Outcome (toOption_bind)

/-- An event as one block sees it. -/
inductive BlockEvent (V : Type)
  | started (kind : ContentBlockStart V)
  | delta (delta : ContentBlockDelta V)
  | stopped

/-- The block an event is about. -/
def ProviderEvent.block? {V : Type} : ProviderEvent V → Option (Nat × BlockEvent V)
  | .contentBlockStarted index kind => some (index, .started kind)
  | .contentBlockDelta index delta => some (index, .delta delta)
  | .contentBlockStopped index => some (index, .stopped)
  | _ => none

/-- The events about one block, in order. -/
def blockEvents {V : Type} (index : Nat) (stream : List (ProviderEvent V)) : List (BlockEvent V) :=
  addressedTo index (stream.filterMap ProviderEvent.block?)

@[simp]
theorem blockEvents_append {V : Type} (index : Nat) (first second : List (ProviderEvent V)) :
    blockEvents index (first ++ second) = blockEvents index first ++ blockEvents index second := by
  simp [blockEvents]

/-- The deltas that fit a kind of block. -/
def ContentBlockStart.fits {V : Type} : ContentBlockStart V → ContentBlockDelta V → Bool
  | .text, .text _ => true
  | .thinking .., .thinkingText _ | .thinking .., .thinkingSignature _
  | .thinking .., .thinkingEncryptedContent _ => true
  | .toolUse .., .toolUseInputJson _ => true
  | .toolResult .., .toolResultContent _ => true
  | .hostedToolSearch _, .hostedToolSearchQuery _
  | .hostedToolSearch _, .hostedToolSearchStatus _ => true
  | .hostedWebSearch _, .hostedWebSearchAction _
  | .hostedWebSearch _, .hostedWebSearchStatus _ => true
  | .imageGeneration _, .imageGenerationStatus _
  | .imageGeneration _, .imageGenerationRevisedPrompt _
  | .imageGeneration _, .imageGenerationResult _ => true
  | _, _ => false

namespace ContentBlockDelta

variable {V : Type}

/-- A slice of a tool use's input. -/
def input? : ContentBlockDelta V → Option String
  | toolUseInputJson delta => some delta
  | _ => none

/-- A part of a tool result. -/
def result? : ContentBlockDelta V → Option (ToolResultContent V)
  | toolResultContent delta => some delta
  | _ => none

/-- A slice of a hosted search's query. -/
def query? : ContentBlockDelta V → Option String
  | hostedToolSearchQuery delta => some delta
  | _ => none

/-- A slice of an image's revised prompt. -/
def prompt? : ContentBlockDelta V → Option String
  | imageGenerationRevisedPrompt delta => some delta
  | _ => none

end ContentBlockDelta

/-- What a block that starts once and then stops once goes through. -/
structure BlockHistory (V : Type) where
  start : ContentBlockStart V
  deltas : List (ContentBlockDelta V)

def BlockHistory.events {V : Type} (history : BlockHistory V) : List (BlockEvent V) :=
  .started history.start :: (history.deltas.map .delta ++ [.stopped])

theorem BlockHistory.events_inj {V : Type} {first second : BlockHistory V} :
    first.events = second.events ↔ first = second := by
  constructor
  · intro same
    obtain ⟨start, deltas⟩ := first
    obtain ⟨start', deltas'⟩ := second
    simp only [events, List.cons.injEq, BlockEvent.started.injEq] at same
    have deltaEvents := (append_inj' same.2 rfl).1
    have injective : Function.Injective (BlockEvent.delta (V := V)) := fun _ _ => by simp
    rw [same.1, injective.list_map deltaEvents]
  · rintro rfl
    rfl

/-! ## Headings -/

/-- What the message-level events say. -/
structure Heading where
  id : Option String := none
  model : Option String := none
  role : Option Role := none
  stopped : Bool := false

namespace Heading

variable {V : Type}

def after (heading : Heading) : ProviderEvent V → Heading
  | .messageStarted id model role =>
    { heading with id := some id, model := some model, role := some role }
  | .messageStopped => { heading with stopped := true }
  | _ => heading

/-- The heading of a whole stream. -/
def ofStream (stream : List (ProviderEvent V)) : Heading :=
  stream.foldl after {}

/-- A message that was announced and ended. -/
def Complete (heading : Heading) : Prop :=
  heading.stopped ∧ heading.role.isSome

instance (heading : Heading) : Decidable heading.Complete :=
  inferInstanceAs (Decidable (_ ∧ _))

/-- An announcement names everything at once. -/
theorem ofStream_named (stream : List (ProviderEvent V)) :
    (ofStream stream).id.isSome = (ofStream stream).role.isSome ∧
      (ofStream stream).model.isSome = (ofStream stream).role.isSome := by
  induction stream using List.reverseRecOn with
  | nil => exact ⟨rfl, rfl⟩
  | append_singleton stream event ih =>
    rw [ofStream, foldl_concat]
    cases event <;> first | exact ih | exact ⟨rfl, rfl⟩

theorem ofStream_concat (stream : List (ProviderEvent V)) (event : ProviderEvent V) :
    ofStream (stream ++ [event]) = (ofStream stream).after event :=
  foldl_concat ..

theorem stopped_ofStream_iff {stream : List (ProviderEvent V)} :
    (ofStream stream).stopped ↔ .messageStopped ∈ stream := by
  induction stream using List.reverseRecOn with
  | nil => simp [ofStream]
  | append_singleton stream event ih =>
    rw [ofStream_concat]
    cases event <;> simp [after, ih]

theorem role_ofStream_iff {stream : List (ProviderEvent V)} :
    (ofStream stream).role.isSome ↔ ∃ id model role, .messageStarted id model role ∈ stream := by
  induction stream using List.reverseRecOn with
  | nil => simp [ofStream]
  | append_singleton stream event ih =>
    rw [ofStream_concat]
    cases event <;> simp [after, ih, exists_or]

end Heading

/-! ## Runs seen through blocks and heading -/

section Views

variable {V σ β : Type} {apply : σ → ProviderEvent V → Option σ}
  {view : σ → OrderedMap Nat β × Heading} {step : Option β → BlockEvent V → Option β}
  (commutes : ∀ state event, (apply state event).map view =
    (mapRun step (view state).1 event.block?.toList).map fun blocks =>
      (blocks, (view state).2.after event))
include commutes

/-- What one event does to blocks and heading, a whole stream does. -/
theorem run_view (state : σ) (stream : List (ProviderEvent V)) :
    (run apply state stream).map view =
      (mapRun step (view state).1 (stream.filterMap ProviderEvent.block?)).map fun blocks =>
        (blocks, stream.foldl Heading.after (view state).2) := by
  induction stream generalizing state with
  | nil => rfl
  | cons event stream ih =>
    have first := commutes state event
    have addressed : (event :: stream).filterMap ProviderEvent.block? =
        event.block?.toList ++ stream.filterMap ProviderEvent.block? := by
      rw [filterMap_cons]
      cases event.block? <;> rfl
    rw [run, addressed, mapRun_append]
    cases applied : apply state event with
    | none =>
      rw [applied, map_none, eq_comm, map_eq_none_iff] at first
      rw [first]
      rfl
    | some next =>
      rw [applied, map_some, eq_comm, map_eq_some_iff] at first
      obtain ⟨blocks, ran, seen⟩ := first
      rw [ran, bind_some, bind_some, ih next, ← seen]
      rfl

/-- What is read off the final state, read off its blocks and heading. -/
theorem run_read {γ : Type} {read : σ → Option γ} {readBlocks : OrderedMap Nat β → Option γ}
    {state : σ} {stream : List (ProviderEvent V)}
    (reads : ∀ final, (view final).2 = stream.foldl Heading.after (view state).2 →
      read final = readBlocks (view final).1) :
    (run apply state stream).bind read =
      (mapRun step (view state).1 (stream.filterMap ProviderEvent.block?)).bind readBlocks := by
  have viewed := run_view commutes state stream
  cases applied : run apply state stream with
  | none =>
    rw [applied, map_none, eq_comm, map_eq_none_iff] at viewed
    rw [viewed]
    rfl
  | some final =>
    rw [applied, map_some, eq_comm, map_eq_some_iff] at viewed
    obtain ⟨blocks, ran, seen⟩ := viewed
    have headings : stream.foldl Heading.after (view state).2 = (view final).2 :=
      congrArg Prod.snd seen
    have same : blocks = (view final).1 := congrArg Prod.fst seen
    rw [ran, bind_some, bind_some, same]
    exact reads final headings.symm

end Views

/-! ## The builder's blocks -/

namespace StreamingContentBlock

variable {V : Type} [JsonText V]

/-- One event at one block of the builder. -/
def step? (debug : ContentBlockDelta V → String) :
    Option (StreamingContentBlock V) → BlockEvent V → Option (StreamingContentBlock V)
  | _, .started kind => some (ofStart kind)
  | some block, .delta delta => (block.applyDelta debug delta).toOption
  | some block, .stopped => some block.markComplete
  | none, _ => none

end StreamingContentBlock

namespace StreamingResponseBuilder

variable {V : Type} [JsonText V] [SerdeJson V]

def heading (builder : StreamingResponseBuilder V) : Heading :=
  ⟨builder.id, builder.model, builder.role, builder.stopped⟩

variable (debug : ContentBlockDelta V → String)

omit [SerdeJson V] in
theorem apply_toOption (builder : StreamingResponseBuilder V) (event : ProviderEvent V) :
    (builder.apply debug event).toOption.map (fun next => (next.blocks, next.heading)) =
      (mapRun (step? debug) builder.blocks event.block?.toList).map
        fun blocks => (blocks, builder.heading.after event) := by
  cases event with
  | contentBlockDelta index delta =>
    simp only [apply, ProviderEvent.block?, toList_some, mapRun]
    cases builder.blocks.get? index with
    | none => rfl
    | some block =>
      simp only [step?]
      cases block.applyDelta debug delta <;> rfl
  | contentBlockStopped index =>
    simp only [apply, ProviderEvent.block?, toList_some, mapRun]
    cases builder.blocks.get? index <;> rfl
  | _ => rfl

omit [SerdeJson V] in
theorem ok_of_applyAll {debug : ContentBlockDelta V → String}
    {builder final : StreamingResponseBuilder V}
    {stream : List (Except ProviderError (ProviderEvent V))}
    (applied : applyAll debug builder stream = .ok final) :
    ∀ item ∈ stream, ∃ event, item = .ok event := by
  induction stream generalizing builder with
  | nil => simp
  | cons item stream ih =>
    obtain ⟨event, isEvent, applied⟩ := Outcome.bind_eq_ok_iff.mp applied
    obtain ⟨next, -, rest⟩ := Outcome.bind_eq_ok_iff.mp applied
    intro other mem
    rcases mem_cons.mp mem with rfl | later
    · exact ⟨event, isEvent⟩
    · exact ih rest other later

omit [SerdeJson V] in
theorem applyAll_toOption (builder : StreamingResponseBuilder V) (stream : List (ProviderEvent V)) :
    (applyAll debug builder (stream.map .ok)).toOption =
      run (fun builder event => (builder.apply debug event).toOption) builder stream := by
  induction stream generalizing builder with
  | nil => rfl
  | cons event stream ih =>
    change (builder.apply debug event >>= _).toOption = _
    rw [toOption_bind]
    congr 1
    funext next
    exact ih next

omit [JsonText V] in
theorem build_toOption {builder : StreamingResponseBuilder V}
    (named : builder.heading.id.isSome = builder.heading.role.isSome ∧
      builder.heading.model.isSome = builder.heading.role.isSome) :
    builder.build.toOption.map Response.content =
      if builder.heading.Complete then (buildContent builder.blocks.entries).toOption
      else none := by
  obtain ⟨id, model, role, blocks, stopReason, usage, stopped⟩ := builder
  cases stopped with
  | false => rfl
  | true =>
    cases role with
    | none =>
      cases id <;> simp_all [build, heading, Heading.Complete, Except.toOption]
    | some role =>
      obtain ⟨id, rfl⟩ := isSome_iff_exists.mp named.1
      obtain ⟨model, rfl⟩ := isSome_iff_exists.mp named.2
      simp only [build, Bool.not_true, Bool.false_eq_true, if_false, toOption_bind]
      cases buildContent blocks.entries <;> rfl

/-- A response is collected when no block refuses an event and the message was announced and
ended. -/
theorem collect_toOption (stream : List (ProviderEvent V)) :
    (collectResponseFromStream debug (stream.map .ok)).toOption.map Response.content =
      (mapRun (step? debug) .empty
        (stream.filterMap ProviderEvent.block?)).bind fun blocks =>
          if (Heading.ofStream stream).Complete then (buildContent blocks.entries).toOption
          else none := by
  rw [collectResponseFromStream, toOption_bind, applyAll_toOption, map_bind]
  refine run_read (apply_toOption debug) ?_
  intro final headings
  have same : final.heading = Heading.ofStream stream := headings
  rw [← same]
  exact build_toOption (same ▸ Heading.ofStream_named stream)

omit [JsonText V] in
/-- Content is built of blocks that are all complete and readable. -/
theorem buildContent_eq_ok_iff {entries : List (Nat × StreamingContentBlock V)}
    {content : List (ContentBlock V)} :
    buildContent entries = .ok content ↔
      List.Forall₂ (fun entry block => entry.2.isComplete ∧
        entry.2.tryIntoContentBlock = .ok block) entries content := by
  induction entries generalizing content with
  | nil =>
    rw [buildContent, List.forall₂_nil_left_iff, Except.ok.injEq]
    exact eq_comm
  | cons entry entries ih =>
    obtain ⟨index, block⟩ := entry
    rw [buildContent]
    cases complete : block.isComplete with
    | false =>
      constructor
      · intro built
        cases built
      · rintro (_ | ⟨first, -⟩)
        simp [complete] at first
    | true =>
      simp only [Bool.not_true, Bool.false_eq_true, if_false, Outcome.bind_eq_ok_iff,
        Outcome.map_eq_ok_iff, ih]
      constructor
      · rintro ⟨first, read, rest, others, rfl⟩
        exact .cons ⟨complete, read⟩ others
      · rintro (_ | ⟨first, others⟩)
        exact ⟨_, first.2, _, others, rfl⟩

/-- What is collected of an announced and ended message. -/
theorem collect_iff {stream : List (ProviderEvent V)}
    (complete : (Heading.ofStream stream).Complete) {content : List (ContentBlock V)} :
    (∃ response, collectResponseFromStream debug (stream.map .ok) = .ok response ∧
        response.content = content) ↔
      ∃ blocks, mapRun (step? debug) .empty
        (stream.filterMap ProviderEvent.block?) = some blocks ∧
        buildContent blocks.entries = .ok content := by
  have collected := collect_toOption debug stream
  simp only [if_pos complete] at collected
  have toOption : ∀ {α : Type} {outcome : Except ProviderError α} {value : α},
      outcome.toOption = some value ↔ outcome = .ok value := by
    intro α outcome value
    cases outcome <;> simp [Except.toOption]
  simp only [← toOption]
  rw [← map_eq_some_iff, collected, bind_eq_some_iff]

end StreamingResponseBuilder

end Mentra
