import Mentra.Foundation.Lists
import Mentra.Provider.Blocks
import Mentra.Provider.ChatCompletions

/-!
# Responses of the chat-completions decoder

However a stream of frames is cut into chunks, the decoder sends what it sends when the frames
are handed over one at a time.  If all frames can be read, it sends one whole message: its
blocks are numbered in the order in which they were first mentioned, and each holds the slices
received for it before the response was done.
-/

namespace Mentra

/-- The number of a block that starts. -/
def ProviderEvent.started? {V : Type} : ProviderEvent V → Option Nat
  | .contentBlockStarted index _ => some index
  | _ => none

/-- The text a delta adds to a block of text, reasoning or tool input. -/
def ContentBlockDelta.slice? {V : Type} : ContentBlockDelta V → Option String
  | .text delta | .thinkingText delta | .toolUseInputJson delta => some delta
  | _ => none

namespace ChatCompletions

open Foundation List ProviderEvent Slice
open Foundation.Emission
open Foundation.Frames
open Foundation.Slots

variable {V : Type}

/-! ## What a response consists of -/

/-- All choices of some chunks. -/
def choices (chunks : List Chunk) : List Choice :=
  chunks.flatMap Chunk.choices

namespace BlockKey

/-- The slices a choice has for a block, empty ones too. -/
def slicesOf (choice : Choice) : BlockKey → List String
  | reasoning => (choice.delta.reasoningContent <|> choice.delta.reasoning).toList
  | text => choice.delta.content.toList
  | tool wire =>
    (choice.delta.toolCalls.filter fun call => call.index = wire).filterMap fun call =>
      call.function.bind FunctionDelta.arguments

/-- The slices sent for a block. -/
def slices (chunks : List Chunk) (key : BlockKey) : List String :=
  (choices chunks).flatMap fun choice => key.slicesOf choice

/-- There is something to open a block for: a slice that is not empty, or any
mention of a tool call. -/
def Occurs (chunks : List Chunk) : BlockKey → Prop
  | tool wire => ∃ choice ∈ choices chunks, ∃ call ∈ choice.delta.toolCalls, call.index = wire
  | key => ∃ slice ∈ key.slices chunks, slice ≠ ""

/-- The kind of block a key stands for. -/
def Starts : BlockKey → ContentBlockStart V → Prop
  | reasoning, .thinking .. | text, .text | tool _, .toolUse .. => True
  | _, _ => False

end BlockKey

variable (chunks : List Chunk) (events : List (ProviderEvent V))

/-- The block at a position: it starts once, takes deltas of its kind that
together are the slices sent for it, and stops once. -/
def IsBlock (index : Nat) (key : BlockKey) : Prop :=
  ∃ history : BlockHistory V, blockEvents index events = history.events ∧
    key.Starts history.start ∧ (∀ delta ∈ history.deltas, history.start.fits delta) ∧
    String.join (history.deltas.filterMap ContentBlockDelta.slice?) =
      String.join (key.slices chunks)

/-- The events of one whole message that holds what some chunks sent. -/
structure WholeMessage (chunks : List Chunk) (events : List (ProviderEvent V)) : Prop where
  /-- One start comes first, one delta and one stop come last, and all between
  them is about blocks. -/
  framed : ∃ id model body reason usage,
    events = .messageStarted id model .assistant ::
      (body ++ [.messageDelta reason usage, .messageStopped]) ∧
    ∀ event ∈ body, event.block?.isSome
  /-- The blocks are numbered as they start, and there is one for each key that
  occurs. -/
  numbered : ∃ keys : List BlockKey, keys.Nodup ∧ (∀ key, key ∈ keys ↔ key.Occurs chunks) ∧
    events.filterMap started? = List.range keys.length ∧
    (∀ index key, keys[index]? = some key → IsBlock chunks events index key) ∧
    ∀ index, keys.length ≤ index → blockEvents index events = []

/-- The chunks that arrive before the response is done. -/
def chunksBeforeDone : List (Option Payload) → List Chunk
  | [] => []
  | none :: payloads => chunksBeforeDone payloads
  | some .done :: _ => []
  | some (.chunk chunk) :: payloads => chunk :: chunksBeforeDone payloads

/-! ## Slices -/

/-- All slices of some chunks, in the order they are taken. -/
def allSlices : List Slice :=
  (choices chunks).flatMap Choice.slices

variable (key : BlockKey)

/-- The deltas that slices add to one block. -/
def deltasOf (slices : List Slice) : List (ContentBlockDelta V) :=
  (slices.filter fun slice => slice.key = key).filterMap delta?

/-- The text of a slice. -/
def Slice.added : Slice → String
  | reasoning slice | text slice => slice
  | call delta => (delta.function.bind FunctionDelta.arguments).getD ""

theorem fits_of_mem_deltasOf {key : BlockKey} {start : ContentBlockStart V} {slices : List Slice}
    (starts : key.Starts start) {delta : ContentBlockDelta V} (mem : delta ∈ deltasOf key slices) :
    start.fits delta := by
  simp only [deltasOf, mem_filterMap, mem_filter, decide_eq_true_eq] at mem
  obtain ⟨slice, ⟨-, rfl⟩, added⟩ := mem
  cases slice with
  | reasoning slice | text slice =>
    cases added
    cases start <;> first | rfl | cases starts
  | call call =>
    obtain ⟨arguments, -, rfl⟩ := Option.map_eq_some_iff.mp added
    cases start <;> first | rfl | cases starts

theorem Slice.delta?_slice? (slice : Slice) :
    (slice.delta?.bind (ContentBlockDelta.slice? (V := V))).getD "" = slice.added := by
  cases slice with
  | reasoning slice | text slice => rfl
  | call call =>
    rw [added, ← getD_nonempty (call.function.bind _), delta?]
    cases nonempty (call.function.bind FunctionDelta.arguments) <;> rfl

theorem join_filterMap {α : Type} (text? : α → Option String) (items : List α) :
    String.join (items.filterMap text?) =
      String.join (items.map fun item => (text? item).getD "") := by
  induction items with
  | nil => rfl
  | cons item items ih =>
    rw [filterMap_cons, map_cons, String.join_cons, ← ih]
    cases text? item with
    | none | some text => simp

theorem join_deltasOf (slices : List Slice) :
    String.join ((deltasOf key slices).filterMap (ContentBlockDelta.slice? (V := V))) =
      String.join ((slices.filter fun slice => slice.key = key).map Slice.added) := by
  rw [deltasOf, filterMap_filterMap, join_filterMap]
  simp only [delta?_slice?]

theorem Choice.filter_slices (choice : Choice) (key : BlockKey) :
    (choice.slices.filter fun slice => slice.key = key) =
      match key with
      | .reasoning => (choice.delta.reasoningText.map reasoning).toList
      | .text => ((nonempty choice.delta.content).map Slice.text).toList
      | .tool wire =>
        (choice.delta.toolCalls.filter fun call => call.index = wire).map Slice.call := by
  rw [slices]
  cases choice.delta.reasoningText <;> cases nonempty choice.delta.content <;> cases key <;>
    simp [key, filter_map, Function.comp_def]

theorem join_toList (text : Option String) : String.join text.toList = text.getD "" := by
  cases text <;> simp

/-- A choice's slices for a block, empty ones left out, make the same text. -/
theorem Choice.join_slices (choice : Choice) (key : BlockKey) :
    String.join ((choice.slices.filter fun slice => slice.key = key).map Slice.added) =
      String.join (key.slicesOf choice) := by
  rw [filter_slices]
  cases key with
  | reasoning =>
    rw [BlockKey.slicesOf, join_toList, ← getD_nonempty, Delta.reasoningText]
    cases nonempty (choice.delta.reasoningContent <|> choice.delta.reasoning) <;>
      simp [Slice.added]
  | text =>
    rw [BlockKey.slicesOf, join_toList, ← getD_nonempty]
    cases nonempty choice.delta.content <;> simp [Slice.added]
  | tool wire =>
    rw [BlockKey.slicesOf, join_filterMap, map_map]
    rfl

theorem join_allSlices :
    String.join (((allSlices chunks).filter fun slice => slice.key = key).map Slice.added) =
      String.join (key.slices chunks) := by
  rw [allSlices, BlockKey.slices]
  induction choices chunks with
  | nil => rfl
  | cons choice choices ih =>
    rw [flatMap_cons, flatMap_cons, filter_append, map_append,
      String.join_append, String.join_append, choice.join_slices, ih]

theorem exists_mem_allSlices_iff :
    (∃ slice ∈ allSlices chunks, slice.key = key) ↔ key.Occurs chunks := by
  have inChoice : (∃ slice ∈ allSlices chunks, slice.key = key) ↔
      ∃ choice ∈ choices chunks, choice.slices.filter (fun slice => slice.key = key) ≠ [] := by
    simp only [allSlices, mem_flatMap, ne_eq, filter_eq_nil_iff, decide_eq_true_eq]
    push Not
    exact ⟨fun ⟨slice, ⟨choice, mem, inside⟩, same⟩ => ⟨choice, mem, slice, inside, same⟩,
      fun ⟨choice, mem, slice, inside, same⟩ => ⟨slice, ⟨choice, mem, inside⟩, same⟩⟩
  have occurs : ∀ (text? : Choice → Option String) {make : String → Slice},
      (∃ choice ∈ choices chunks, ((nonempty (text? choice)).map make).toList ≠ []) ↔
        ∃ slice ∈ (choices chunks).flatMap fun choice => (text? choice).toList, slice ≠ "" := by
    intro text? make
    constructor
    · rintro ⟨choice, mem, some⟩
      cases found : nonempty (text? choice) with
      | none => exact absurd (by rw [found]; rfl) some
      | some slice =>
        obtain ⟨present, differs⟩ := nonempty_eq_some_iff.mp found
        exact ⟨slice, mem_flatMap.mpr ⟨choice, mem, by simp [present]⟩, differs⟩
    · rintro ⟨slice, inside, differs⟩
      obtain ⟨choice, mem, present⟩ := mem_flatMap.mp inside
      refine ⟨choice, mem, ?_⟩
      rw [nonempty_eq_some_iff.mpr ⟨Option.mem_toList.mp present, differs⟩]
      exact cons_ne_nil _ _
  rw [inChoice]
  simp only [Choice.filter_slices]
  cases key with
  | reasoning => exact occurs fun choice => choice.delta.reasoningContent <|> choice.delta.reasoning
  | text => exact occurs fun choice => choice.delta.content
  | tool wire => simp [BlockKey.Occurs]

/-! ## Blocks opened so far -/

section Deltas

variable (index other : Nat) (delta : Option (ContentBlockDelta V))

theorem blockEvents_deltas :
    blockEvents other (delta.map (.contentBlockDelta index)).toList =
      if index = other then delta.toList.map .delta else [] := by
  cases delta with
  | none => simp [blockEvents]
  | some delta =>
    by_cases same : index = other <;> simp [blockEvents, addressedTo, block?, same]

theorem blockEvents_opened (start : ContentBlockStart V) :
    blockEvents other (.contentBlockStarted index start ::
        (delta.map (.contentBlockDelta index)).toList) =
      if index = other then .started start :: delta.toList.map .delta else [] := by
  have split := blockEvents_append other [.contentBlockStarted index start]
    (delta.map (.contentBlockDelta index)).toList
  rw [singleton_append, blockEvents_deltas] at split
  rw [split]
  by_cases same : index = other <;> simp [blockEvents, addressedTo, block?, same]

theorem started?_deltas :
    (delta.map (.contentBlockDelta index)).toList.filterMap started? = [] := by
  cases delta <;> rfl

variable {index delta}

theorem isSome_block?_deltas {event : ProviderEvent V}
    (mem : event ∈ (delta.map (.contentBlockDelta index)).toList) : event.block?.isSome := by
  obtain ⟨delta, -, rfl⟩ := Option.map_eq_some_iff.mp (Option.mem_toList.mp mem)
  rfl

end Deltas

theorem deltasOf_concat (slices : List Slice) (slice : Slice) :
    deltasOf (V := V) key (slices ++ [slice]) =
      deltasOf key slices ++ if slice.key = key then slice.delta?.toList else [] := by
  rw [deltasOf, filter_append, filterMap_append]
  congr 1
  by_cases same : slice.key = key
  · cases added : slice.delta? (V := V) <;> simp [same, added]
  · simp [same]

namespace StreamState

variable (state : StreamState)

@[simp]
theorem indexOf_remember (index : Nat) (key other : BlockKey) :
    (state.remember index key).indexOf other =
      if other = key then some index else state.indexOf other := by
  cases key <;> cases other <;> simp only [remember, indexOf, reduceCtorEq, if_true, if_false]
  rename_i wire other
  by_cases same : other = wire
  · rw [same, OrderedMap.get?_insert_self, if_pos rfl]
  · rw [OrderedMap.get?_insert_of_ne same, if_neg (by simpa using same)]

@[simp]
theorem nextIndex_remember (index : Nat) (key : BlockKey) :
    (state.remember index key).nextIndex = state.nextIndex := by
  cases key <;> rfl

@[simp]
theorem openBlocks_remember (index : Nat) (key : BlockKey) :
    (state.remember index key).openBlocks = state.openBlocks := by
  cases key <;> rfl

end StreamState

/-- The blocks `keys` were opened in this order for the slices taken, and the
events sent are theirs. -/
structure Opened (keys : List BlockKey) (slices : List Slice) (events : List (ProviderEvent V))
    (state : StreamState) : Prop where
  mem_iff : ∀ key, key ∈ keys ↔ ∃ slice ∈ slices, slice.key = key
  indexOf_iff : ∀ index key, state.indexOf key = some index ↔ keys[index]? = some key
  nextIndex : state.nextIndex = keys.length
  openBlocks : state.openBlocks = List.range keys.length
  starts : events.filterMap started? = List.range keys.length
  aboutBlocks : ∀ event ∈ events, event.block?.isSome
  block : ∀ index key, keys[index]? = some key →
    ∃ start, key.Starts start ∧
      blockEvents index events = .started start :: (deltasOf key slices).map .delta
  beyond : ∀ index, keys.length ≤ index → blockEvents index events = []

namespace Opened

variable {keys : List BlockKey} {slices : List Slice} {events : List (ProviderEvent V)}
  {state : StreamState}

theorem nothing (provider requestedModel : String) :
    Opened (V := V) [] [] [] (.new provider requestedModel) where
  mem_iff := by simp
  indexOf_iff := by
    intro index key
    cases key <;> simp [StreamState.new, StreamState.indexOf]
  nextIndex := rfl
  openBlocks := rfl
  starts := rfl
  aboutBlocks := by simp
  block := by simp
  beyond := fun _ _ => rfl

theorem nodup (opened : Opened keys slices events state) : keys.Nodup := by
  rw [nodup_iff_getElem?_ne_getElem?]
  intro first second before inside same
  obtain ⟨key, atSecond⟩ : ∃ key, keys[second]? = some key := ⟨_, getElem?_eq_getElem inside⟩
  have atFirst := (opened.indexOf_iff first key).mpr (same.trans atSecond)
  rw [(opened.indexOf_iff second key).mpr atSecond, Option.some.injEq] at atFirst
  omega

/-- A slice for an open block is a delta of it. -/
theorem takeSlice_open (opened : Opened keys slices events state) {slice : Slice} {index : Nat}
    (known : state.indexOf slice.key = some index) :
    Opened keys (slices ++ [slice]) (events ++ (state.takeSlice slice).1)
      (state.takeSlice (V := V) slice).2 := by
  simp only [StreamState.takeSlice, known]
  have here := (opened.indexOf_iff index slice.key).mp known
  have apart : ∀ other key, keys[other]? = some key → (slice.key = key ↔ index = other) := by
    intro other key found
    constructor
    · rintro rfl
      rw [(opened.indexOf_iff other slice.key).mpr found, Option.some.injEq] at known
      exact known.symm
    · rintro rfl
      exact Option.some.inj (here.symm.trans found)
  exact
    { mem_iff := by
        intro key
        rw [opened.mem_iff]
        constructor
        · rintro ⟨older, mem, same⟩
          exact ⟨older, mem_append_left _ mem, same⟩
        · rintro ⟨older, mem, rfl⟩
          rcases mem_append.mp mem with old | new
          · exact ⟨older, old, rfl⟩
          · rw [mem_singleton.mp new]
            exact (opened.mem_iff _).mp (mem_of_getElem? here)
      indexOf_iff := opened.indexOf_iff
      nextIndex := opened.nextIndex
      openBlocks := opened.openBlocks
      starts := by
        rw [filterMap_append, opened.starts, started?_deltas, append_nil]
      aboutBlocks := by
        intro event mem
        rcases mem_append.mp mem with old | new
        · exact opened.aboutBlocks event old
        · exact isSome_block?_deltas new
      block := by
        intro other key found
        obtain ⟨start, starts, sent⟩ := opened.block other key found
        refine ⟨start, starts, ?_⟩
        rw [blockEvents_append, sent, blockEvents_deltas, deltasOf_concat, map_append]
        by_cases same : index = other
        · rw [if_pos same, if_pos ((apart other key found).mpr same)]
          rfl
        · rw [if_neg same, if_neg fun sameKey => same ((apart other key found).mp sameKey)]
          rfl
      beyond := by
        intro other past
        have inside := (List.getElem?_eq_some_iff.mp here).1
        rw [blockEvents_append, opened.beyond other past, blockEvents_deltas, if_neg (by omega)]
        rfl }

/-- A slice for a block that is not open opens it. -/
theorem takeSlice_new (opened : Opened keys slices events state) {slice : Slice}
    (unknown : state.indexOf slice.key = none) :
    Opened (keys ++ [slice.key]) (slices ++ [slice]) (events ++ (state.takeSlice slice).1)
      (state.takeSlice (V := V) slice).2 := by
  simp only [StreamState.takeSlice, unknown, StreamState.allocate, opened.nextIndex]
  have fresh : slice.key ∉ keys := by
    intro mem
    obtain ⟨index, found⟩ := mem_iff_getElem?.mp mem
    rw [(opened.indexOf_iff index slice.key).mpr found] at unknown
    cases unknown
  exact
    { mem_iff := by
        intro key
        simp only [mem_append, mem_singleton, opened.mem_iff]
        constructor
        · rintro (⟨older, mem, same⟩ | rfl)
          · exact ⟨older, .inl mem, same⟩
          · exact ⟨slice, .inr rfl, rfl⟩
        · rintro ⟨older, mem | rfl, same⟩
          · exact .inl ⟨older, mem, same⟩
          · exact .inr same.symm
      indexOf_iff := by
        intro index key
        rw [StreamState.indexOf_remember, Lists.getElem?_concat]
        by_cases same : key = slice.key
        · subst same
          rw [if_pos rfl, Option.some.injEq, eq_comm]
          by_cases last : index = keys.length
          · rw [if_pos last]
            exact ⟨fun _ => rfl, fun _ => last⟩
          · rw [if_neg last]
            exact ⟨fun is => absurd is last, fun found => absurd (mem_of_getElem? found) fresh⟩
        · rw [if_neg same]
          refine (opened.indexOf_iff index key).trans ?_
          by_cases last : index = keys.length
          · rw [if_pos last, last, getElem?_eq_none le_rfl]
            simp [Ne.symm same]
          · rw [if_neg last]
      nextIndex := by simp
      openBlocks := by
        simp [opened.openBlocks, range_succ]
      starts := by
        rw [filterMap_append, opened.starts, filterMap_cons]
        simp only [started?, started?_deltas]
        simp [range_succ]
      aboutBlocks := by
        intro event mem
        rcases mem_append.mp mem with old | new
        · exact opened.aboutBlocks event old
        · rcases mem_cons.mp new with rfl | delta
          · rfl
          · exact isSome_block?_deltas delta
      block := by
        intro other key found
        rw [deltasOf_concat]
        rw [Lists.getElem?_concat] at found
        by_cases last : other = keys.length
        · rw [if_pos last, Option.some.injEq] at found
          subst found last
          refine ⟨slice.start state.provenance keys.length, by cases slice <;> trivial, ?_⟩
          have none : deltasOf (V := V) slice.key slices = [] := by
            rw [deltasOf, filter_eq_nil_iff.mpr]
            · rfl
            · intro older mem same
              exact fresh ((opened.mem_iff _).mpr ⟨older, mem, of_decide_eq_true same⟩)
          rw [blockEvents_append, opened.beyond _ le_rfl, blockEvents_opened, if_pos rfl, none,
            if_pos rfl]
          rfl
        · rw [if_neg last] at found
          obtain ⟨start, starts, sent⟩ := opened.block other key found
          have differs : slice.key ≠ key := fun same => fresh (same ▸ mem_of_getElem? found)
          refine ⟨start, starts, ?_⟩
          rw [blockEvents_append, sent, blockEvents_opened, if_neg (Ne.symm last), if_neg differs,
            append_nil, append_nil]
      beyond := by
        intro other past
        rw [length_append, length_singleton] at past
        rw [blockEvents_append, opened.beyond other (by omega), blockEvents_opened,
          if_neg (by omega)]
        rfl }

end Opened

/-- Some blocks were opened for the slices taken. -/
def Numbered (slices : List Slice) (events : List (ProviderEvent V)) (state : StreamState) : Prop :=
  ∃ keys, Opened keys slices events state

namespace Numbered

variable {slices : List Slice} {events : List (ProviderEvent V)} {state : StreamState}

theorem takeSlice (slices : List Slice) (events : List (ProviderEvent V)) (state : StreamState)
    (slice : Slice) (numbered : Numbered slices events state) :
    Numbered (slices ++ [slice]) (events ++ (state.takeSlice slice).1)
      (state.takeSlice (V := V) slice).2 := by
  obtain ⟨keys, opened⟩ := numbered
  cases known : state.indexOf slice.key with
  | some index => exact ⟨keys, opened.takeSlice_open known⟩
  | none => exact ⟨keys ++ [slice.key], opened.takeSlice_new known⟩

theorem of_blocks {other : StreamState} (numbered : Numbered slices events state)
    (indexOf : other.indexOf = state.indexOf) (nextIndex : other.nextIndex = state.nextIndex)
    (openBlocks : other.openBlocks = state.openBlocks) : Numbered slices events other := by
  obtain ⟨keys, opened⟩ := numbered
  exact ⟨keys,
    { opened with
      indexOf_iff := indexOf ▸ opened.indexOf_iff
      nextIndex := nextIndex.trans opened.nextIndex
      openBlocks := openBlocks.trans opened.openBlocks }⟩

theorem takeChoice (numbered : Numbered slices events state) (choice : Choice) :
    Numbered (slices ++ choice.slices) (events ++ (state.takeChoice choice).1)
      (state.takeChoice (V := V) choice).2 :=
  (emit_invariant takeSlice numbered choice.slices).of_blocks rfl rfl rfl

theorem takeChoices (numbered : Numbered slices events state) (choices : List Choice) :
    Numbered (slices ++ choices.flatMap Choice.slices)
      (events ++ (emit StreamState.takeChoice state choices).1)
      (emit (StreamState.takeChoice (V := V)) state choices).2 := by
  induction choices generalizing slices events state with
  | nil => simpa using numbered
  | cons choice choices ih =>
    have later := ih (numbered.takeChoice choice)
    simpa only [emit, flatMap_cons, append_assoc] using later

end Numbered

/-! ## Whole responses -/

variable (state : StreamState)

/-- What was sent of a response that is not closed out: nothing, or the start of
the message and the blocks opened so far. -/
def Begun : Prop :=
  ∃ body, Numbered (allSlices chunks) body state ∧
    if state.started then ∃ id model, events = .messageStarted id model .assistant :: body
    else events = [] ∧ body = []

/-- A response is closed out as a whole message once it is finished. -/
def Reported : Prop :=
  if state.finished then WholeMessage chunks events else Begun chunks events state

section Responses

variable {chunks : List Chunk} {events : List (ProviderEvent V)} {state : StreamState}

theorem Begun.announce (begun : Begun chunks events state) (id model : Option String) :
    ∃ id' model' body,
      events ++ (state.announce id model).1 = .messageStarted id' model' .assistant :: body ∧
      Numbered (allSlices chunks) body (state.announce (V := V) id model).2 ∧
      (state.announce (V := V) id model).2.started = true ∧
      (state.announce (V := V) id model).2.finished = state.finished := by
  obtain ⟨body, numbered, sent⟩ := begun
  rw [StreamState.announce]
  cases started : state.started with
  | true =>
    rw [if_pos started] at sent
    obtain ⟨id, model, rfl⟩ := sent
    exact ⟨id, model, body, append_nil _, numbered, started, rfl⟩
  | false =>
    rw [started, if_neg nofun] at sent
    obtain ⟨rfl, rfl⟩ := sent
    exact ⟨_, _, [], rfl, numbered.of_blocks rfl rfl rfl, rfl, rfl⟩

/-- Choices leave alone whether the message is announced or finished. -/
theorem emit_takeChoice_flags (state : StreamState) (choices : List Choice) :
    (emit (StreamState.takeChoice (V := V)) state choices).2.started = state.started ∧
      (emit (StreamState.takeChoice (V := V)) state choices).2.finished = state.finished := by
  let Same (_ : List (ProviderEvent V)) (next : StreamState) : Prop :=
    next.started = state.started ∧ next.finished = state.finished
  have sliced (events : List (ProviderEvent V)) (next : StreamState) (slice : Slice)
      (same : Same events next) :
      Same (events ++ (next.takeSlice slice).1) (next.takeSlice (V := V) slice).2 := by
    rw [StreamState.takeSlice]
    cases next.indexOf slice.key with
    | some index => exact same
    | none => cases slice <;> exact same
  have taken (events : List (ProviderEvent V)) (next : StreamState) (choice : Choice)
      (same : Same events next) :
      Same (events ++ (next.takeChoice choice).1) (next.takeChoice (V := V) choice).2 :=
    @emit_keeps _ _ _ _ Same sliced events next same choice.slices
  exact @emit_keeps _ _ _ _ Same taken [] state ⟨rfl, rfl⟩ choices

theorem Reported.applyChunk (reported : Reported chunks events state)
    (unfinished : state.finished = false) (chunk : Chunk) :
    Reported (chunks ++ [chunk]) (events ++ (state.applyChunk chunk).1)
      (state.applyChunk (V := V) chunk).2 ∧
    (state.applyChunk (V := V) chunk).2.finished = false := by
  rw [Reported, unfinished, if_neg nofun] at reported
  obtain ⟨id, model, body, sent, numbered, started, finished⟩ :=
    reported.announce chunk.id chunk.model
  simp only [StreamState.applyChunk, unfinished, Bool.false_eq_true, if_false]
  generalize state.announce (V := V) chunk.id chunk.model = announced at *
  have flags := emit_takeChoice_flags (V := V) (announced.2.recordUsage chunk.usage) chunk.choices
  have stillStarted := flags.1.trans started
  have stillUnfinished := flags.2.trans (finished.trans unfinished)
  have recorded : Numbered (allSlices chunks) body (announced.2.recordUsage chunk.usage) :=
    numbered.of_blocks rfl rfl rfl
  refine ⟨?_, stillUnfinished⟩
  rw [Reported, if_neg (by rw [stillUnfinished]; nofun)]
  refine ⟨body ++ (emit StreamState.takeChoice (announced.2.recordUsage chunk.usage)
    chunk.choices).1, ?_, ?_⟩
  · rw [show allSlices (chunks ++ [chunk]) =
      allSlices chunks ++ chunk.choices.flatMap Choice.slices by simp [allSlices, choices]]
    exact recorded.takeChoices chunk.choices
  · rw [if_pos stillStarted, ← append_assoc, sent]
    exact ⟨id, model, rfl⟩

theorem blockEvents_stops (count index : Nat) :
    blockEvents index ((List.range count).map fun block =>
        (.contentBlockStopped block : ProviderEvent V)) =
      if index < count then [.stopped] else [] := by
  induction count with
  | zero => rfl
  | succ count ih =>
    rw [range_succ, map_append, blockEvents_append, ih]
    by_cases last : index = count
    · subst last
      simp [blockEvents, addressedTo, block?]
    · have others : blockEvents index [(.contentBlockStopped count : ProviderEvent V)] = [] := by
        simp [blockEvents, addressedTo, block?, Ne.symm last]
      rw [map_singleton, others, append_nil]
      by_cases below : index < count
      · rw [if_pos below, if_pos (by omega)]
      · rw [if_neg below, if_neg (by omega)]

/-- The start of a message, blocks that are open and their stops, and the end
are a whole message. -/
theorem wholeMessage {body : List (ProviderEvent V)}
    (numbered : Numbered (allSlices chunks) body state) (id model : String)
    (reason : Option String) (usage : Option TokenUsage) :
    WholeMessage chunks (.messageStarted id model .assistant :: body ++
      (state.openBlocks.map fun index => .contentBlockStopped index) ++
      [.messageDelta reason usage, .messageStopped]) := by
  obtain ⟨keys, opened⟩ := numbered
  rw [opened.openBlocks]
  have seen : ∀ index, blockEvents index (.messageStarted id model .assistant :: body ++
      ((List.range keys.length).map fun index => .contentBlockStopped index) ++
      [.messageDelta reason usage, .messageStopped]) =
        blockEvents index body ++ if index < keys.length then [.stopped] else [] := by
    intro index
    rw [← blockEvents_stops (V := V), blockEvents_append, blockEvents_append]
    exact append_nil _
  refine ⟨⟨id, model, body ++ (List.range keys.length).map fun index => .contentBlockStopped index,
    reason, usage, rfl, ?_⟩, keys, opened.nodup, ?_, ?_, ?_, ?_⟩
  · intro event mem
    rcases mem_append.mp mem with old | stop
    · exact opened.aboutBlocks event old
    · obtain ⟨index, -, rfl⟩ := mem_map.mp stop
      rfl
  · intro key
    rw [opened.mem_iff, exists_mem_allSlices_iff]
  · have stops : ∀ indices : List Nat, (indices.map fun index =>
        (.contentBlockStopped index : ProviderEvent V)).filterMap started? = [] := by
      intro indices
      simp [filterMap_map, started?, Function.comp_def]
    rw [filterMap_append, filterMap_append, stops, append_nil]
    exact (append_nil _).trans opened.starts
  · intro index key found
    obtain ⟨start, starts, sent⟩ := opened.block index key found
    refine ⟨⟨start, deltasOf key (allSlices chunks)⟩, ?_, starts, ?_, ?_⟩
    · rw [seen, sent, if_pos (List.getElem?_eq_some_iff.mp found).1]
      rfl
    · exact fun delta mem => fits_of_mem_deltasOf starts mem
    · rw [join_deltasOf, join_allSlices]
  · intro index past
    rw [seen, opened.beyond index past, if_neg (by omega)]
    rfl

theorem Reported.finish (reported : Reported chunks events state) :
    Reported chunks (events ++ state.finish.1) (state.finish (V := V)).2 ∧
      (state.finish (V := V)).2.finished = true := by
  rw [StreamState.finish]
  by_cases finished : state.finished = true
  · rw [if_pos finished, append_nil]
    exact ⟨reported, finished⟩
  · rw [Reported, if_neg finished] at reported
    rw [if_neg finished]
    have begun : Begun chunks events { state with finished := true } := by
      obtain ⟨body, numbered, sent⟩ := reported
      exact ⟨body, numbered.of_blocks rfl rfl rfl, sent⟩
    obtain ⟨id, model, body, sent, numbered, -, finished⟩ := begun.announce none none
    generalize ({ state with finished := true } : StreamState).announce (V := V) none none =
      announced at *
    refine ⟨?_, finished⟩
    rw [Reported, if_pos finished, ← append_assoc, ← append_assoc, sent]
    exact wholeMessage numbered id model _ _

end Responses

/-! ## Streams -/

/-- What a frame is read as, whatever came before it. -/
def readFrame (fromUtf8 : List UInt8 → Except String String) (read : String → Except String Chunk) :
    List UInt8 → Except ProviderError (Option Payload) :=
  Sse.readFrame fromUtf8 Sse.skipsComments (readPayload read)

/-- Take what a frame was read as. -/
def StreamState.takeFrame :
    Option Payload → List (ProviderEvent V) × StreamState
  | none => ([], state)
  | some payload => state.takePayload payload

theorem parse_eq (fromUtf8 : List UInt8 → Except String String)
    (read : String → Except String Chunk) (provider requestedModel : String)
    (frame : List UInt8) (state : StreamState) :
    (decoder (V := V) fromUtf8 read provider requestedModel).parse frame state =
      (readFrame fromUtf8 read frame).map state.takeFrame := by
  have handled := Sse.parseFrame_eq fromUtf8 Sse.skipsComments (readPayload read)
    (fun payload state => .ok (state.takePayload (V := V) payload)) frame state
  refine handled.trans ?_
  rw [readFrame]
  cases Sse.readFrame fromUtf8 Sse.skipsComments (readPayload read) frame with
  | error error => rfl
  | ok payload? => cases payload? <;> rfl

section Payloads

variable {payloads : List (Option Payload)}

theorem chunksBeforeDone_append (payloads later : List (Option Payload)) :
    chunksBeforeDone (payloads ++ later) = chunksBeforeDone payloads ++
      if some .done ∈ payloads then [] else chunksBeforeDone later := by
  induction payloads with
  | nil => rfl
  | cons payload payloads ih =>
    cases payload with
    | none => simpa [chunksBeforeDone] using ih
    | some payload => cases payload <;> simp [chunksBeforeDone, ih]

/-- The response after some frames, and whether it is finished. -/
theorem reported_takeFrame (payloads : List (Option Payload)) (events : List (ProviderEvent V))
    (state : StreamState) (payload : Option Payload)
    (before : Reported (chunksBeforeDone payloads) events state ∧
      (state.finished = true ↔ some .done ∈ payloads)) :
    Reported (chunksBeforeDone (payloads ++ [payload])) (events ++ (state.takeFrame payload).1)
      (state.takeFrame (V := V) payload).2 ∧
    ((state.takeFrame (V := V) payload).2.finished = true ↔
      some .done ∈ payloads ++ [payload]) := by
  obtain ⟨reported, finishes⟩ := before
  have same (later : Option Payload) (nothing : chunksBeforeDone [later] = []) :
      chunksBeforeDone (payloads ++ [later]) = chunksBeforeDone payloads := by
    rw [chunksBeforeDone_append, nothing, ite_self, append_nil]
  cases payload with
  | none =>
    rw [same none rfl, StreamState.takeFrame, append_nil]
    exact ⟨reported, by simpa using finishes⟩
  | some payload =>
    cases payload with
    | done =>
      rw [same (some .done) rfl]
      exact ⟨reported.finish.1, by simp [reported.finish.2, StreamState.takeFrame,
        StreamState.takePayload]⟩
    | chunk chunk =>
      have notDone : (some .done ∈ payloads ++ [some (Payload.chunk chunk)]) ↔
          some .done ∈ payloads := by simp
      rw [notDone]
      by_cases finished : state.finished = true
      · rw [chunksBeforeDone_append, if_pos (finishes.mp finished), StreamState.takeFrame,
          StreamState.takePayload, StreamState.applyChunk, if_pos finished, append_nil, append_nil]
        exact ⟨reported, finishes⟩
      · have open' : some .done ∉ payloads := fun done => finished (finishes.mpr done)
        rw [chunksBeforeDone_append, if_neg open']
        have unfinished := Bool.eq_false_iff.mpr finished
        have next := reported.applyChunk unfinished chunk
        exact ⟨next.1, by simp [StreamState.takeFrame, StreamState.takePayload, next.2, open']⟩

end Payloads

/-- Streams of frames, the last perhaps not ended, are cut where the frames
end. -/
theorem framed_first (frames : List Sse.Frame) {tail : List UInt8} (unended : Sse.Unended tail) :
    Framed Sse.findFirstFrameBoundary (frames.map Sse.Frame.parts) tail := by
  induction frames with
  | nil =>
    apply Framed.nil
    intro seen part
    have lf := (position_eq_none_iff (by simp [Sse.Ending.delimiter])).mpr
      fun occurs => unended.1 (occurs.trans part.isInfix)
    have crlf := (position_eq_none_iff (by simp [Sse.Ending.delimiter])).mpr
      fun occurs => unended.2 (occurs.trans part.isInfix)
    rw [Sse.findFirstFrameBoundary, crlf, lf]
  | cons frame frames ih =>
    refine .cons ?_ (Sse.findsFirst_first frame.isFrameText frame.ending) ih
    cases frame.ending <;> simp [Sse.Ending.delimiter]

/-- The decoder sends the same for every cutting of a stream of frames; if all can be read, it
sends one whole message of the chunks before the end was announced. -/
theorem received_wholeMessage (V : Type) (fromUtf8 : List UInt8 → Except String String)
    (read : String → Except String Chunk) (provider requestedModel : String)
    (frames : List Sse.Frame) (tail : List UInt8) (unended : Sse.Unended tail)
    (cutting : List (List UInt8))
    (cuts : cutting.flatten = stream (frames.map Sse.Frame.parts) tail) :
    received ((decoder (V := V) fromUtf8 read provider requestedModel).forward
        Sse.findFirstFrameBoundary cutting) =
      received ((decoder (V := V) fromUtf8 read provider requestedModel).handed
        (frames.map Sse.Frame.text) tail) ∧
    ∀ payloads, List.Forall₂ (fun frame payload => readFrame fromUtf8 read frame = .ok payload)
        (frames.map Sse.Frame.text ++ if tail.isEmpty then [] else [tail]) payloads →
      ∃ events, received ((decoder (V := V) fromUtf8 read provider requestedModel).forward
          Sse.findFirstFrameBoundary cutting) = events.map .ok ∧
        WholeMessage (chunksBeforeDone payloads) events := by
  have handed : (decoder (V := V) fromUtf8 read provider requestedModel).forward
      Sse.findFirstFrameBoundary cutting = _ :=
    Decoder.forward_framed (framed_first frames unended) cuts
  rw [map_map, show Prod.fst ∘ Sse.Frame.parts = Sse.Frame.text from rfl] at handed
  rw [handed]
  refine ⟨rfl, ?_⟩
  intro payloads reads
  have parses : (decoder (V := V) fromUtf8 read provider requestedModel).Parses
      StreamState.takeFrame (frames.map Sse.Frame.text ++ if tail.isEmpty then [] else [tail])
      payloads := by
    refine reads.imp fun frame payload read state => ?_
    rw [parse_eq, read]
    rfl
  have sent := Decoder.received_handed parses rfl
  have initial : Reported (V := V) (chunksBeforeDone []) [] (.new provider requestedModel) ∧
      ((StreamState.new provider requestedModel).finished = true ↔ some Payload.done ∈ []) :=
    ⟨⟨[], ⟨[], .nothing provider requestedModel⟩, rfl, rfl⟩, by simp [StreamState.new]⟩
  have reported := (emit_invariant reported_takeFrame initial payloads).1.finish
  rw [nil_append, nil_append, Reported, if_pos reported.2] at reported
  exact ⟨_, sent, reported.1⟩

/-- One chunk with a slice of text. -/
def helloChunk : Chunk :=
  { choices := [{ delta := { content := some "Hi" } }] }

def readHello : String → Except String Chunk
  | "1" => .ok helloChunk
  | _ => .error "expected value"

/-- `data: 1` and `data: [DONE]`, ended in different forms. -/
def helloFrames : List Sse.Frame :=
  [⟨[100, 97, 116, 97, 58, 32, 49], .crlf, by decide⟩,
    ⟨[100, 97, 116, 97, 58, 32, 91, 68, 79, 78, 69, 93], .lf, by decide⟩]

/-- The frames and the start of a comment, cut inside the first delimiter. -/
theorem hello_wholeMessage :
    ∃ events, received ((decoder (V := Unit) Sse.ofAscii readHello "p" "m").forward
        Sse.findFirstFrameBoundary
        [[100, 97, 116, 97, 58, 32, 49, 13, 10],
          [13, 10, 100, 97, 116, 97, 58, 32, 91, 68, 79, 78, 69, 93, 10, 10, 58]]) =
        events.map .ok ∧
      WholeMessage [helloChunk] events :=
  (received_wholeMessage Unit Sse.ofAscii readHello "p" "m" helloFrames [58]
    ⟨by decide, by decide⟩ _ (by decide)).2 [some (.chunk helloChunk), some .done, none]
    (.cons (by decide +kernel) (.cons (by decide +kernel) (.cons (by decide +kernel) .nil)))

end ChatCompletions

end Mentra
