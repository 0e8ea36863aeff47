import Mentra.Foundation.Lists
import Mentra.Provider.Positions

/-!
# Function calls of a Gemini response

The decoder takes a part's position as the index of its block, so a call becomes a tool use
only at a position that nothing else has since everything was closed, and that no later part
takes over.  If that fails anywhere, the collector refuses the stream or a call is missing.
-/

namespace Mentra

/-- The call a tool use carries. -/
def ContentBlock.call? {V : Type} : ContentBlock V → Option (Gemini.FunctionCall V)
  | .toolUse _ name input => some ⟨name, input⟩
  | _ => none

namespace Gemini

open Foundation List Option StreamingResponseBuilder StreamingContentBlock StreamState Signal
open Foundation.Emission
open Foundation.Slots

variable {V : Type}

namespace Signal

def call? : Signal V → Option (FunctionCall V)
  | call made => some made
  | _ => none

/-- A text that adds nothing. -/
def Empty : Signal V → Prop
  | text added => added = ""
  | _ => False

end Signal

/-- Texts that add nothing, then closings. -/
def Settled (signals : List (Signal V)) : Prop :=
  ∃ quiet closed, signals = quiet ++ closed ∧ (∀ signal ∈ quiet, signal.Empty) ∧
    ∀ signal ∈ closed, signal = .close

/-- At a position a call is alone: it comes first or right after a closing, and
after it come only texts that add nothing and then closings. -/
def CallsAlone (signals : List (Signal V)) : Prop :=
  ∀ older call newer, signals = older ++ .call call :: newer →
    (older = [] ∨ older.getLast? = some .close) ∧ Settled newer

/-! ## Who has a position -/

/-- Who has a position: nobody, a text, a call, or a call that was closed. -/
inductive Occupant
  | free
  | text
  | call
  | spent

/-- The occupant after a signal, unless a call is not alone. -/
def Occupant.next : Occupant → Signal V → Option Occupant
  | free, .close => some free
  | free, .text _ => some text
  | free, .call _ => some call
  | text, .close => some free
  | text, .text _ => some text
  | text, .call _ => none
  | call, .close => some spent
  | call, .text added => if added = "" then some call else none
  | call, .call _ => none
  | spent, .close => some spent
  | spent, .text _ => none
  | spent, .call _ => none

section Alone

open Transition

variable {signals : List (Signal V)}

variable {signal : Signal V}

theorem settled_cons_iff :
    Settled (signal :: signals) ↔
      (signal.Empty ∧ Settled signals) ∨ (signal = .close ∧ ∀ later ∈ signals, later = .close) := by
  constructor
  · rintro ⟨quiet, closed, split, empty, closes⟩
    cases quiet with
    | nil =>
      subst split
      exact .inr ⟨closes signal mem_cons_self,
        fun later mem => closes later (mem_cons_of_mem _ mem)⟩
    | cons first quiet =>
      obtain ⟨rfl, rfl⟩ := List.cons.inj split
      exact .inl ⟨empty signal mem_cons_self, quiet, closed, rfl,
        fun later mem => empty later (mem_cons_of_mem _ mem), closes⟩
  · rintro (⟨empty, quiet, closed, rfl, empties, closes⟩ | ⟨rfl, closes⟩)
    · exact ⟨signal :: quiet, closed, rfl, by simpa using ⟨empty, empties⟩, closes⟩
    · exact ⟨[], .close :: signals, rfl, by simp, by simpa using closes⟩

theorem Settled.call_notMem (settled : Settled signals) (call : FunctionCall V) :
    .call call ∉ signals := by
  obtain ⟨quiet, closed, rfl, empty, closes⟩ := settled
  intro mem
  rcases mem_append.mp mem with inQuiet | inClosed
  · exact empty _ inQuiet
  · cases closes _ inClosed

theorem run_spent_iff :
    (run Occupant.next .spent signals).isSome ↔ ∀ signal ∈ signals, signal = .close := by
  induction signals with
  | nil => simp
  | cons signal signals ih => cases signal <;> simp [run, Occupant.next, ih]

theorem run_call_iff : (run Occupant.next .call signals).isSome ↔ Settled signals := by
  induction signals with
  | nil => exact iff_of_true rfl ⟨[], [], rfl, by simp, by simp⟩
  | cons signal signals ih =>
    rw [settled_cons_iff, ← ih, ← run_spent_iff]
    cases signal with
    | close => simp [run, Occupant.next, Signal.Empty]
    | text added =>
      by_cases empty : added = "" <;> simp [run, Occupant.next, Signal.Empty, empty]
    | call added => simp [run, Occupant.next, Signal.Empty]

theorem forall_split_cons {Before : List (Signal V) → Prop} {After : List (Signal V) → Prop} :
    (∀ older call newer, signal :: signals = older ++ .call call :: newer →
        Before older ∧ After newer) ↔
      (∀ call, signal = .call call → Before [] ∧ After signals) ∧
        ∀ older call newer, signals = older ++ .call call :: newer →
          Before (signal :: older) ∧ After newer := by
  constructor
  · intro all
    constructor
    · rintro call rfl
      exact all [] call signals rfl
    · rintro older call newer rfl
      exact all (signal :: older) call newer rfl
  · rintro ⟨here, later⟩ older call newer split
    cases older with
    | nil =>
      obtain ⟨rfl, rfl⟩ := List.cons.inj split
      exact here call rfl
    | cons first older =>
      obtain ⟨rfl, rfl⟩ := List.cons.inj split
      exact later older call newer rfl

theorem getLast?_cons_close_iff :
    (signal :: signals).getLast? = some .close ↔
      (signals = [] ∧ signal = .close) ∨ signals.getLast? = some .close := by
  cases signals with
  | nil => simp
  | cons next signals => simp [getLast?_cons_cons]

/-- Calls are alone if the position is free before, or taken by a text. -/
theorem run_free_text_iff :
    ((run Occupant.next .free signals).isSome ↔ CallsAlone signals) ∧
      ((run Occupant.next .text signals).isSome ↔
        ∀ older call newer, signals = older ++ .call call :: newer →
          older.getLast? = some .close ∧ Settled newer) := by
  induction signals with
  | nil => simp [CallsAlone]
  | cons signal signals ih =>
    rw [CallsAlone, forall_split_cons, forall_split_cons]
    simp only [getLast?_cons_close_iff]
    cases signal with
    | close =>
      simp only [run, Occupant.next, bind_some, ih.1, CallsAlone]
      simp
    | text added =>
      simp only [run, Occupant.next, bind_some, ih.2]
      simp
    | call made =>
      have none : ∀ {Before : List (Signal V) → Prop}, Settled signals →
          ∀ older call newer, signals = older ++ .call call :: newer →
            Before older ∧ Settled newer := by
        rintro _ settled older call newer rfl
        exact absurd (mem_append_right _ mem_cons_self) (settled.call_notMem call)
      constructor
      · simp only [run, Occupant.next, bind_some, run_call_iff]
        exact ⟨fun settled => ⟨fun _ _ => ⟨.inl trivial, settled⟩, none settled⟩,
          fun both => (both.1 made rfl).2⟩
      · simp [run, Occupant.next]

end Alone

/-! ## The collector's block at a position -/

variable {block? : Option (StreamingContentBlock V)}

section Block

variable [SerdeJson V] [JsonText V] (debug : ContentBlockDelta V → String)

/-- Feed the collector's block at a position. -/
def feed (result : Option (Option (StreamingContentBlock V))) (events : List (BlockEvent V)) :
    Option (Option (StreamingContentBlock V)) :=
  result.bind fun block => slotRun (step? debug) block events

/-- Whether a block is a tool use. -/
def toolCount : StreamingContentBlock V → Nat
  | .toolUse .. => 1
  | _ => 0

/-- What decoder and collector have at a position whose calls are alone so far. -/
def Holds (calls : List (FunctionCall V)) (slot : Slot)
    (result : Option (Option (StreamingContentBlock V))) : Occupant → Prop
  | .free => calls = [] ∧ slot = {} ∧
      (result = some none ∨ ∃ text, result = some (some (.text text true)))
  | .text => calls = [] ∧ slot.opened = true ∧ slot.tool = "" ∧
      ∃ text, result = some (some (.text text false))
  | .call => ∃ call id, calls = [call] ∧ slot = ⟨true, "", SerdeJson.print call.args⟩ ∧
      result = some (some (.toolUse id call.name (SerdeJson.print call.args) false))
  | .spent => ∃ call id, calls = [call] ∧ slot = {} ∧
      result = some (some (.toolUse id call.name (SerdeJson.print call.args) true))

/-- The collector refused the events, or has fewer tool uses than there were
calls. -/
def Lost (calls : List (FunctionCall V)) (result : Option (Option (StreamingContentBlock V))) :
    Prop :=
  ∀ block?, result = some block? → ∃ block, block? = some block ∧ toolCount block < calls.length

/-! ### Tool uses are never more than calls -/

/-- Whether an event starts a tool use. -/
def startsTool : BlockEvent V → Bool
  | .started (.toolUse ..) => true
  | _ => false

omit [SerdeJson V] in
theorem toolCount_step? {event : BlockEvent V} {next : StreamingContentBlock V}
    (stepped : step? debug block? event = some next) :
    toolCount next ≤ (block?.map toolCount).getD 0 + (startsTool event).toNat := by
  cases event with
  | started kind =>
    obtain rfl := Option.some.inj stepped
    cases kind <;> simp [ofStart, toolCount, startsTool]
  | delta delta =>
    cases block? with
    | none => cases stepped
    | some block =>
      have same : toolCount next = toolCount block := by
        cases block <;> cases delta <;> cases stepped <;> rfl
      rw [same]
      exact Nat.le_add_right _ _
  | stopped =>
    cases block? with
    | none => cases stepped
    | some block =>
      obtain rfl := Option.some.inj stepped
      cases block <;> exact Nat.le_add_right _ _

omit [SerdeJson V] in
theorem toolCount_slotRun {final : Option (StreamingContentBlock V)} {events : List (BlockEvent V)}
    (done : slotRun (step? debug) block? events = some final) :
    (final.map toolCount).getD 0 ≤ (block?.map toolCount).getD 0 + events.countP startsTool := by
  induction events generalizing block? with
  | nil =>
    obtain rfl := Option.some.inj done
    exact Nat.le_add_right _ _
  | cons event events ih =>
    obtain ⟨next, stepped, rest⟩ := slotRun_cons_eq_some_iff.mp done
    have first := toolCount_step? debug stepped
    have others := ih rest
    rw [countP_cons]
    simp only [map_some, getD_some] at others
    cases starts : startsTool event with
    | true =>
      rw [starts, Bool.toNat_true] at first
      rw [if_pos rfl]
      omega
    | false =>
      rw [starts, Bool.toNat_false] at first
      omega

omit [JsonText V] in
theorem countP_take_le (toolId : String → String) (slot : Slot) (signal : Signal V) :
    (slot.take toolId signal).1.countP startsTool ≤ signal.call?.toList.length := by
  obtain ⟨opened, text, tool⟩ := slot
  cases signal with
  | close => cases opened <;> simp [Slot.take, startsTool]
  | text added =>
    cases merged : (mergeChunk text added).1 <;> cases opened <;>
      simp [Slot.take, merged, startsTool]
  | call made =>
    cases merged : (mergeChunk tool (SerdeJson.print made.args)).1 <;> cases opened <;>
      simp [Slot.take, merged, startsTool, call?, countP_cons]

theorem Lost.take {calls : List (FunctionCall V)}
    {result : Option (Option (StreamingContentBlock V))} (lost : Lost calls result)
    (toolId : String → String) (slot : Slot) (signal : Signal V) :
    Lost (calls ++ signal.call?.toList) (feed debug result (slot.take toolId signal).1) := by
  intro final fed
  obtain ⟨block?, before, done⟩ := bind_eq_some_iff.mp fed
  obtain ⟨block, rfl, fewer⟩ := lost block? before
  obtain ⟨last, rfl⟩ := isSome_iff_exists.mp (slotRun_isSome done (.inl rfl))
  refine ⟨last, rfl, ?_⟩
  have bound := toolCount_slotRun debug done
  have starts := countP_take_le toolId slot signal
  simp only [map_some, getD_some] at bound
  rw [length_append]
  omega

/-! ### One signal -/

theorem mergeChunk_first {current : String} (some : current ≠ "") :
    mergeChunk "" current = (.some current, current) := by
  simp [mergeChunk, some]

section Feeding

variable (delta : Option String) (complete : Bool)

omit [SerdeJson V] in
theorem feed_text (before : String) :
    ∃ after, feed debug (some (some (.text before complete)))
      (delta.map fun delta => .delta (.text delta)).toList =
        some (some (.text after complete)) := by
  cases delta with
  | none => exact ⟨before, rfl⟩
  | some delta => exact ⟨before ++ delta, rfl⟩

omit [SerdeJson V] in
theorem feed_tool (id name before : String) :
    ∃ after, feed debug (some (some (.toolUse id name before complete)))
      (delta.map fun delta => .delta (.toolUseInputJson delta)).toList =
        some (some (.toolUse id name after complete)) := by
  cases delta with
  | none => exact ⟨before, rfl⟩
  | some delta => exact ⟨before ++ delta, rfl⟩

omit [SerdeJson V] in
/-- A start takes the place of what was there. -/
theorem feed_started (block? : Option (StreamingContentBlock V)) (kind : ContentBlockStart V)
    (events : List (BlockEvent V)) :
    feed debug (some block?) ([.started kind] ++ events) =
      feed debug (some (some (.ofStart kind))) events := by
  cases block? <;> rfl

end Feeding

section Step

variable {calls : List (FunctionCall V)} {slot : Slot}
  {result : Option (Option (StreamingContentBlock V))}
    (printed : ∀ value : V, SerdeJson.print value ≠ "")
  (toolId : String → String)

/-- What one signal leaves at a position whose calls were alone before. -/
def Outcome (calls : List (FunctionCall V)) (slot : Slot)
    (result : Option (Option (StreamingContentBlock V))) : Option Occupant → Prop
  | some occupant => Holds calls slot result occupant
  | none => Lost calls result

include printed in
theorem take_free (block? : Option (StreamingContentBlock V)) (signal : Signal V)
    (before : block? = none ∨ ∃ text, block? = some (.text text true)) :
    Outcome signal.call?.toList (Slot.take toolId {} signal).2
      (feed debug (some block?) (Slot.take toolId {} signal).1) (Occupant.free.next signal) := by
  cases signal with
  | close =>
    refine ⟨rfl, rfl, ?_⟩
    rcases before with rfl | ⟨text, rfl⟩
    · exact .inl rfl
    · exact .inr ⟨text, rfl⟩
  | text added =>
    refine ⟨rfl, rfl, rfl, ?_⟩
    simp only [Slot.take, Bool.false_eq_true, if_false, feed_started]
    exact feed_text debug _ false ""
  | call made =>
    refine ⟨made, toolId made.name, rfl, ?_, ?_⟩
    · simp [Slot.take, mergeChunk_first (printed made.args)]
    · simp only [Slot.take, Bool.false_eq_true, if_false, feed_started,
        mergeChunk_first (printed made.args)]
      simp [feed, slotRun, step?, ofStart,
        applyDelta, Except.toOption]

include printed in
theorem take_text {slot : Slot} (opened : slot.opened = true) (tool : slot.tool = "")
    (text : String) (signal : Signal V) :
    Outcome signal.call?.toList (slot.take toolId signal).2
      (feed debug (some (some (.text text false))) (slot.take toolId signal).1)
      (Occupant.text.next signal) := by
  cases signal with
  | close =>
    refine ⟨rfl, rfl, .inr ⟨text, ?_⟩⟩
    simp only [Slot.take, opened, if_true]
    rfl
  | text added =>
    refine ⟨rfl, rfl, tool, ?_⟩
    simp only [Slot.take, opened, if_true, nil_append]
    exact feed_text debug _ false text
  | call made =>
    intro block? fed
    simp [Slot.take, opened, tool, mergeChunk_first (printed made.args), feed, slotRun,
      step?, applyDelta, Except.toOption] at fed

theorem take_call (call : FunctionCall V) (id : String) (signal : Signal V) :
    Outcome (call :: signal.call?.toList)
      (Slot.take toolId ⟨true, "", SerdeJson.print call.args⟩ signal).2
      (feed debug (some (some (.toolUse id call.name (SerdeJson.print call.args) false)))
        (Slot.take toolId ⟨true, "", SerdeJson.print call.args⟩ signal).1)
      (Occupant.call.next signal) := by
  cases signal with
  | close => exact ⟨call, id, rfl, rfl, rfl⟩
  | text added =>
    by_cases empty : added = ""
    · subst empty
      exact ⟨call, id, rfl, rfl, rfl⟩
    · rw [Occupant.next, if_neg empty]
      intro block? fed
      simp [Slot.take, mergeChunk_first empty, feed, slotRun, step?,
        applyDelta, Except.toOption] at fed
  | call made =>
    intro block? fed
    simp only [Slot.take, if_true, nil_append] at fed
    obtain ⟨after, kept⟩ := feed_tool debug
      (mergeChunk (SerdeJson.print call.args) (SerdeJson.print made.args)).1 false id call.name
      (SerdeJson.print call.args)
    rw [kept] at fed
    exact ⟨_, (Option.some.inj fed).symm, Nat.lt_succ_self 1⟩

theorem take_spent (call : FunctionCall V) (block : StreamingContentBlock V) (id : String)
    (spent : block = .toolUse id call.name (SerdeJson.print call.args) true) (signal : Signal V) :
    Outcome (call :: signal.call?.toList) (Slot.take toolId {} signal).2
      (feed debug (some (some block)) (Slot.take toolId {} signal).1)
      (Occupant.spent.next signal) := by
  cases signal with
  | close => exact ⟨call, id, rfl, rfl, by rw [spent]; rfl⟩
  | text added =>
    intro block? fed
    obtain ⟨after, kept⟩ := feed_text debug (V := V) (mergeChunk "" added).1 false ""
    exact ⟨_, (Option.some.inj (fed.symm.trans kept)), Nat.lt_succ_self 0⟩
  | call made =>
    intro block? fed
    obtain ⟨after, kept⟩ := feed_tool debug (V := V)
      (mergeChunk "" (SerdeJson.print made.args)).1 false (toolId made.name) made.name ""
    exact ⟨_, (Option.some.inj (fed.symm.trans kept)), Nat.lt_succ_self 1⟩

include printed in
/-- One signal at a position whose calls are alone so far. -/
theorem Holds.take {occupant : Occupant} (holds : Holds calls slot result occupant)
    (signal : Signal V) :
    Outcome (calls ++ signal.call?.toList) (slot.take toolId signal).2
      (feed debug result (slot.take toolId signal).1) (occupant.next signal) := by
  cases occupant with
  | free =>
    obtain ⟨rfl, rfl, before⟩ := holds
    rcases before with rfl | ⟨text, rfl⟩
    · exact take_free debug printed toolId none signal (.inl rfl)
    · exact take_free debug printed toolId _ signal (.inr ⟨text, rfl⟩)
  | text =>
    obtain ⟨rfl, opened, tool, text, rfl⟩ := holds
    exact take_text debug printed toolId opened tool text signal
  | call =>
    obtain ⟨call, id, rfl, rfl, rfl⟩ := holds
    exact take_call debug toolId call id signal
  | spent =>
    obtain ⟨call, id, rfl, rfl, rfl⟩ := holds
    exact take_spent debug toolId call _ id rfl signal

end Step

/-! ### All signals -/

/-- What decoder and collector have at a position after these signals, for which
these events were sent. -/
def Seen (signals : List (Signal V)) (events : List (BlockEvent V)) (slot : Slot) : Prop :=
  Outcome (signals.filterMap call?) slot
    (slotRun (step? debug) none events)
    (Transition.run Occupant.next .free signals)

theorem Seen.nothing : Seen (V := V) debug [] [] {} :=
  ⟨rfl, rfl, .inl rfl⟩

theorem Seen.take (printed : ∀ value : V, SerdeJson.print value ≠ "") (toolId : String → String)
    (signals : List (Signal V)) (events : List (BlockEvent V)) (slot : Slot) (signal : Signal V)
    (seen : Seen debug signals events slot) :
    Seen debug (signals ++ [signal]) (events ++ (slot.take toolId signal).1)
      (slot.take toolId signal).2 := by
  have calls : (signals ++ [signal]).filterMap call? =
      signals.filterMap call? ++ signal.call?.toList := by
    cases made : signal.call? <;> simp [made]
  have ran : Transition.run Occupant.next .free (signals ++ [signal]) =
      (Transition.run Occupant.next .free signals).bind fun occupant => occupant.next signal := by
    rw [Transition.run_append]
    congr 1
    funext occupant
    simp [Transition.run]
  rw [Seen] at seen ⊢
  rw [calls, slotRun_append, ran]
  cases before : Transition.run Occupant.next .free signals with
  | none =>
    rw [before] at seen
    exact seen.take debug toolId slot signal
  | some occupant =>
    rw [before] at seen
    exact seen.take debug printed toolId signal

omit [SerdeJson V] [JsonText V] in
/-- Everything at a position is over once it is closed. -/
theorem run_concat_close {signals : List (Signal V)} {occupant : Occupant}
    (ran : Transition.run Occupant.next .free (signals ++ [.close]) = some occupant) :
    occupant = .free ∨ occupant = .spent := by
  rw [Transition.run_append, bind_eq_some_iff] at ran
  obtain ⟨before, -, closed⟩ := ran
  rw [Transition.run_cons_eq_some_iff] at closed
  obtain ⟨after, stepped, same⟩ := closed
  obtain rfl := Option.some.inj same
  cases before <;> simp_all [Occupant.next]

end Block

/-! ## Streams of chunks -/

variable {chunks : List (StreamChunk V)}

section Streams

variable [SerdeJson V] [JsonText V] (debug : ContentBlockDelta V → String)
  (printed : ∀ value : V, SerdeJson.print value ≠ "")

/-- Each position is as its own signals leave it. -/
def SeenEverywhere (chunks : List (StreamChunk V)) (events : List (ProviderEvent V))
    (state : StreamState) : Prop :=
  (∀ chunk ∈ chunks, chunk.error = none) →
    ∀ index, Seen debug (signalsAt index chunks) (blockEvents index events) (state.slot index)

include printed in
theorem SeenEverywhere.advance (chunks : List (StreamChunk V)) (events : List (ProviderEvent V))
    (state : StreamState) (chunk : StreamChunk V)
    (seen : SeenEverywhere debug chunks events state) :
    SeenEverywhere debug (chunks ++ [chunk]) (events ++ (state.advance chunk).1)
      (state.advance chunk).2 := by
  intro fine index
  have before := seen (fun older mem => fine older (mem_append_left _ mem)) index
  obtain ⟨toolId, follows⟩ := advance_follows (fine chunk (by simp)) state index
  have after := emit_invariant (Seen.take debug printed toolId) before (chunk.signalsAt index)
  rw [follows] at after
  rw [signalsAt, flatMap_append, flatMap_singleton, blockEvents_append]
  exact after

include printed in
theorem seen_emit (fine : ∀ chunk ∈ chunks, chunk.error = none) (requestModel : String)
    (index : Nat) :
    Seen debug (signalsAt index chunks)
      (blockEvents index (emit advance { requestModel } chunks).1)
      ((emit advance { requestModel } chunks).2.slot index) := by
  have initial : SeenEverywhere (V := V) debug [] [] { requestModel } :=
    fun _ _ => Seen.nothing debug
  exact emit_invariant (SeenEverywhere.advance debug printed) initial chunks fine index

end Streams

/-! ## Calls and their positions -/

/-- The calls at each position of a chunk's parts. -/
def placedCalls (offset : Nat) : List (Part V) → List (Nat × FunctionCall V)
  | [] => []
  | part :: parts =>
    ((part.signal?.bind call?).map fun call => (offset, call)).toList ++
      placedCalls (offset + 1) parts

theorem addressedTo_placedCalls (offset index : Nat) (parts : List (Part V)) :
    addressedTo index (placedCalls offset parts) =
      if offset ≤ index then
        ((parts[index - offset]?.bind Part.signal?).bind call?).toList
      else [] := by
  induction parts generalizing offset with
  | nil => simp [placedCalls]
  | cons part parts ih =>
    rw [placedCalls, addressedTo_append, ih]
    rcases lt_trichotomy index offset with before | here | after
    · rw [if_neg (by omega), if_neg (by omega)]
      cases part.signal?.bind call? with
      | none => rfl
      | some call => simp [addressedTo, (show offset ≠ index by omega)]
    · subst here
      cases made : part.signal?.bind call? <;> simp [addressedTo, made]
    · rw [if_pos (by omega), if_pos (by omega),
        show index - offset = index - (offset + 1) + 1 by omega, getElem?_cons_succ]
      cases part.signal?.bind call? with
      | none => rfl
      | some call => simp [addressedTo, (show offset ≠ index by omega)]

theorem map_snd_placedCalls (offset : Nat) (parts : List (Part V)) :
    (placedCalls offset parts).map Prod.snd =
      parts.filterMap fun part => part.signal?.bind call? := by
  induction parts generalizing offset with
  | nil => rfl
  | cons part parts ih =>
    rw [placedCalls, map_append, ih, filterMap_cons]
    cases part.signal?.bind call? <;> rfl

/-- The calls of a stream with their positions. -/
def allPlacedCalls (chunks : List (StreamChunk V)) : List (Nat × FunctionCall V) :=
  chunks.flatMap fun chunk => placedCalls 0 chunk.parts

theorem addressedTo_allPlacedCalls (index : Nat) (chunks : List (StreamChunk V)) :
    addressedTo index (allPlacedCalls chunks) = (signalsAt index chunks).filterMap call? := by
  induction chunks with
  | nil => rfl
  | cons chunk chunks ih =>
    have closing : (if chunk.closes then [close (V := V)] else []).filterMap call? = [] := by
      cases chunk.closes <;> rfl
    rw [allPlacedCalls, flatMap_cons, addressedTo_append, addressedTo_placedCalls,
      if_pos (Nat.zero_le _), signalsAt, flatMap_cons, filterMap_append]
    congr 1
    rw [StreamChunk.signalsAt, filterMap_append, closing, append_nil, Nat.sub_zero]
    cases chunk.parts[index]?.bind Part.signal? with
    | none => rfl
    | some found =>
      cases made : found.call? <;> simp [made]

/-! ## What is collected -/

/-- The calls of all parts of a chunk. -/
def StreamChunk.calls (chunk : StreamChunk V) : List (FunctionCall V) :=
  chunk.candidates.flatMap fun candidate => candidate.parts.filterMap Part.functionCall

section Collected

variable [SerdeJson V]

/-- The arguments of a call are read back from their text as they are. -/
def FunctionCall.ReadsBack (call : FunctionCall V) : Prop :=
  SerdeJson.fromStr (SerdeJson.print call.args) = .ok call.args

/-- A position that is over: its calls are the one tool use there. -/
def Over (calls : List (FunctionCall V)) : Option (StreamingContentBlock V) → Prop
  | none => calls = []
  | some block => block.isComplete ∧
      ∃ content, block.tryIntoContentBlock = .ok content ∧ content.call?.toList = calls

theorem Holds.settles {calls : List (FunctionCall V)} {slot : Slot}
    {result : Option (Option (StreamingContentBlock V))} {occupant : Occupant}
    (reads : ∀ call ∈ calls, call.ReadsBack)
    (holds : Holds calls slot result occupant) (closed : occupant = .free ∨ occupant = .spent) :
    ∃ block?, result = some block? ∧ Over calls block? := by
  rcases closed with rfl | rfl
  · obtain ⟨rfl, -, rfl | ⟨text, rfl⟩⟩ := holds
    · exact ⟨none, rfl, rfl⟩
    · exact ⟨some (.text text true), rfl, rfl, .text text, rfl, rfl⟩
  · obtain ⟨call, id, rfl, -, rfl⟩ := holds
    refine ⟨_, rfl, rfl, .toolUse id call.name call.args, ?_, rfl⟩
    have same : _ = _ := reads call mem_cons_self
    simp [tryIntoContentBlock, same]

/-- At any position there are at most as many tool uses as calls, and fewer if a
call is not alone. -/
theorem Outcome.bound {calls : List (FunctionCall V)} {slot : Slot} {occupant? : Option Occupant}
    (outcome : Outcome calls slot (some block?) occupant?) :
    (calls ≠ [] → block?.isSome) ∧ (block?.map toolCount).getD 0 ≤ calls.length ∧
      (occupant? = none → (block?.map toolCount).getD 0 < calls.length) := by
  cases occupant? with
  | none =>
    obtain ⟨block, rfl, fewer⟩ := outcome block? rfl
    exact ⟨fun _ => rfl, fewer.le, fun _ => fewer⟩
  | some occupant =>
    have exactly : (block?.map toolCount).getD 0 = calls.length ∧ (calls ≠ [] → block?.isSome) := by
      cases occupant with
      | free =>
        obtain ⟨rfl, -, ⟨⟨⟩⟩ | ⟨text, ⟨⟩⟩⟩ := outcome
        · exact ⟨rfl, fun some => absurd rfl some⟩
        · exact ⟨rfl, fun _ => rfl⟩
      | text =>
        obtain ⟨rfl, -, -, text, ⟨⟩⟩ := outcome
        exact ⟨rfl, fun _ => rfl⟩
      | call | spent =>
        obtain ⟨call, id, rfl, -, ⟨⟩⟩ := outcome
        exact ⟨rfl, fun _ => rfl⟩
    exact ⟨exactly.2, exactly.1.le, nofun⟩

theorem toolCount_eq {block : StreamingContentBlock V} {content : ContentBlock V}
    (read : block.tryIntoContentBlock = .ok content) :
    content.call?.toList.length = toolCount block := by
  cases block with
  | toolUse id name inputJson complete =>
    simp only [tryIntoContentBlock] at read
    cases parsed : (SerdeJson.fromStr inputJson : Except String V) with
    | error error => simp [parsed] at read
    | ok input =>
      rw [parsed] at read
      obtain rfl := Except.ok.inj read
      rfl
  | _ =>
    obtain rfl := Except.ok.inj read
    rfl

/-- The calls of positions that are over are the tool uses, in order. -/
theorem buildContent_of_over (calls : Nat → List (FunctionCall V))
    {entries : List (Nat × StreamingContentBlock V)}
    (ended : ∀ entry ∈ entries, Over (calls entry.1) (some entry.2)) :
    ∃ content, StreamingResponseBuilder.buildContent entries = .ok content ∧
      content.filterMap ContentBlock.call? = entries.flatMap fun entry => calls entry.1 := by
  simp only [buildContent_eq_ok_iff]
  induction entries with
  | nil => exact ⟨[], .nil, rfl⟩
  | cons entry entries ih =>
    obtain ⟨complete, content, read, same⟩ := ended entry mem_cons_self
    obtain ⟨others, built, rest⟩ := ih fun other mem => ended other (mem_cons_of_mem _ mem)
    refine ⟨content :: others, .cons ⟨complete, read⟩ built, ?_⟩
    rw [flatMap_cons, ← same, ← rest, filterMap_cons]
    cases content.call? <;> rfl

theorem length_calls_of_buildContent {entries : List (Nat × StreamingContentBlock V)}
    {content : List (ContentBlock V)}
    (built : StreamingResponseBuilder.buildContent entries = .ok content) :
    (content.filterMap ContentBlock.call?).length =
      (entries.map fun entry => toolCount entry.2).sum := by
  rw [buildContent_eq_ok_iff] at built
  induction built with
  | nil => rfl
  | @cons entry block entries content first others ih =>
    rw [map_cons, sum_cons, ← ih, ← toolCount_eq first.2, filterMap_cons]
    cases block.call? with
    | none => simp
    | some call => simp [Nat.add_comm]

end Collected

/-! ## Calls of a stream -/

section Stream

variable [SerdeJson V] [JsonText V] {debug : ContentBlockDelta V → String}
  (printed : ∀ value : V, SerdeJson.print value ≠ "")
  {chunks : List (StreamChunk V)} {requestModel : String}

/-- The collector's blocks of a stream. -/
def Collects (debug : ContentBlockDelta V → String) (requestModel : String)
    (chunks : List (StreamChunk V)) (blocks : OrderedMap Nat (StreamingContentBlock V)) : Prop :=
  mapRun (step? debug) .empty
    ((emit advance { requestModel } chunks).1.filterMap ProviderEvent.block?) = some blocks

variable {blocks : OrderedMap Nat (StreamingContentBlock V)}

include printed in
/-- What the collector has at each position of a stream. -/
theorem Collects.outcome (fine : ∀ chunk ∈ chunks, chunk.error = none)
    (collects : Collects debug requestModel chunks blocks) (index : Nat) :
    ∃ slot, Outcome (addressedTo index (allPlacedCalls chunks)) slot (some (blocks.get? index))
      (Transition.run Occupant.next .free (signalsAt index chunks)) := by
  have seen := seen_emit debug printed fine requestModel index
  have built : slotRun (step? debug) none
      (blockEvents index (emit advance { requestModel } chunks).1) = _ :=
    slotRun_of_mapRun collects index
  rw [Seen, ← addressedTo_allPlacedCalls, built] at seen
  exact ⟨_, seen⟩

omit [SerdeJson V] [JsonText V] in
/-- The positions of a stream's calls hold blocks, so the calls can be sorted by
the collector's blocks. -/
theorem perm_placedCalls
    (held : ∀ index, addressedTo index (allPlacedCalls chunks) ≠ [] → (blocks.get? index).isSome) :
    (blocks.entries.flatMap fun entry => addressedTo entry.1 (allPlacedCalls chunks)).Perm
      ((allPlacedCalls chunks).map Prod.snd) := by
  rw [← flatMap_map Prod.fst fun index => addressedTo index (allPlacedCalls chunks)]
  apply perm_flatMap_addressedTo blocks.nodup_keys
  rintro ⟨index, call⟩ mem
  have some : call ∈ addressedTo index (allPlacedCalls chunks) :=
    mem_filterMap.mpr ⟨_, mem, if_pos rfl⟩
  obtain ⟨block, found⟩ := isSome_iff_exists.mp (held index (ne_nil_of_mem some))
  exact mem_map.mpr ⟨(index, block), mem_entries_iff.mpr found, rfl⟩

include printed in
theorem exists_content_of_callsAlone {front : List (StreamChunk V)} {last : StreamChunk V}
    (reads : ∀ call ∈ (allPlacedCalls (front ++ [last])).map Prod.snd, call.ReadsBack)
    (fine : ∀ chunk ∈ front ++ [last], chunk.error = none) (finishes : last.finishes)
    (alone : ∀ index, CallsAlone (signalsAt index (front ++ [last]))) :
    ∃ blocks content, Collects debug requestModel (front ++ [last]) blocks ∧
      StreamingResponseBuilder.buildContent blocks.entries = .ok content ∧
      (content.filterMap ContentBlock.call?).Perm
        ((allPlacedCalls (front ++ [last])).map Prod.snd) := by
  have ended : ∀ index, ∃ block?,
      slotRun (step? debug) none (blockEvents index
        (emit advance { requestModel } (front ++ [last])).1) = some block? ∧
      Over (addressedTo index (allPlacedCalls (front ++ [last]))) block? := by
    intro index
    have seen := seen_emit debug printed fine requestModel index
    obtain ⟨occupant, ran⟩ := isSome_iff_exists.mp (run_free_text_iff.1.mpr (alone index))
    rw [Seen, ran, ← addressedTo_allPlacedCalls] at seen
    refine seen.settles (fun call mem => reads call (mem_of_mem_addressedTo mem)) ?_
    obtain ⟨before, ends⟩ : ∃ before, signalsAt index (front ++ [last]) = before ++ [.close] := by
      refine ⟨signalsAt index front ++ (last.parts[index]?.bind Part.signal?).toList, ?_⟩
      rw [signalsAt, flatMap_append, flatMap_singleton, StreamChunk.signalsAt,
        StreamChunk.closes_of_finishes finishes, if_pos rfl, append_assoc]
      rfl
    exact run_concat_close (ends ▸ ran)
  obtain ⟨blocks, collects⟩ : ∃ blocks, Collects debug requestModel (front ++ [last]) blocks := by
    apply exists_mapRun
    intro index
    obtain ⟨block?, ran, -⟩ := ended index
    exact ⟨block?, ran⟩
  have overBlock : ∀ index,
      Over (addressedTo index (allPlacedCalls (front ++ [last]))) (blocks.get? index) := by
    intro index
    obtain ⟨block?, ran, settled⟩ := ended index
    have same := (slotRun_of_mapRun collects index).symm.trans ran
    rwa [Option.some.inj same]
  have overEntry : ∀ entry ∈ blocks.entries,
      Over (addressedTo entry.1 (allPlacedCalls (front ++ [last]))) (some entry.2) := by
    intro entry mem
    rw [← mem_entries_iff.mp mem]
    exact overBlock entry.1
  obtain ⟨content, built, calls⟩ := buildContent_of_over
    (fun index => addressedTo index (allPlacedCalls (front ++ [last]))) overEntry
  refine ⟨blocks, content, collects, built, ?_⟩
  rw [calls]
  apply perm_placedCalls
  intro index some
  cases found : blocks.get? index with
  | none =>
    have none := overBlock index
    rw [found] at none
    exact absurd none some
  | some block => rfl

include printed in
/-- There are at most as many tool uses as calls, and fewer if at some position a
call is not alone. -/
theorem length_calls_le (fine : ∀ chunk ∈ chunks, chunk.error = none)
    (collects : Collects debug requestModel chunks blocks) {content : List (ContentBlock V)}
    (built : StreamingResponseBuilder.buildContent blocks.entries = .ok content) :
    (content.filterMap ContentBlock.call?).length ≤ (allPlacedCalls chunks).length ∧
      ((allPlacedCalls chunks).length ≤ (content.filterMap ContentBlock.call?).length →
        ∀ index, CallsAlone (signalsAt index chunks)) := by
  have bounds : ∀ index, _ := fun index =>
    (collects.outcome printed fine index).elim fun _ outcome => outcome.bound
  have total := (perm_placedCalls fun index => (bounds index).1).length_eq
  rw [length_map, length_flatMap] at total
  rw [length_calls_of_buildContent built, ← total]
  have each : ∀ entry ∈ blocks.entries,
      toolCount entry.2 ≤ (addressedTo entry.1 (allPlacedCalls chunks)).length := by
    intro entry mem
    have bound := (bounds entry.1).2.1
    rwa [mem_entries_iff.mp mem] at bound
  refine ⟨sum_le_sum each, fun enough index => ?_⟩
  by_contra notAlone
  rw [← run_free_text_iff.1, not_isSome_iff_eq_none] at notAlone
  have fewer := (bounds index).2.2 notAlone
  have some : addressedTo index (allPlacedCalls chunks) ≠ [] := by
    intro none
    rw [none] at fewer
    exact absurd fewer (Nat.not_lt_zero _)
  obtain ⟨block, found⟩ := isSome_iff_exists.mp ((bounds index).1 some)
  rw [found] at fewer
  have strict := sum_lt_sum _ _ each ⟨(index, block), mem_entries_iff.mpr found, fewer⟩
  exact absurd enough (Nat.not_le.mpr strict)

end Stream

/-! ## The decoder -/

/-- Every part is a slice of text or a call. -/
def Part.Single (part : Part V) : Prop :=
  part.text.isSome ≠ part.functionCall.isSome

/-- The calls of the candidates that are not read. -/
def StreamChunk.unreadCalls (chunk : StreamChunk V) : List (FunctionCall V) :=
  chunk.candidates.tail.flatMap fun candidate => candidate.parts.filterMap Part.functionCall

theorem Part.Single.call? {part : Part V} (single : part.Single) :
    part.signal?.bind call? = part.functionCall := by
  obtain ⟨text, functionCall⟩ := part
  cases text <;> cases functionCall <;> first | rfl | exact absurd rfl single

theorem StreamChunk.calls_eq {chunk : StreamChunk V}
    (single : ∀ candidate ∈ chunk.candidates, ∀ part ∈ candidate.parts, part.Single) :
    chunk.calls = (placedCalls 0 chunk.parts).map Prod.snd ++ chunk.unreadCalls := by
  rw [map_snd_placedCalls, StreamChunk.calls, StreamChunk.parts, StreamChunk.unreadCalls]
  cases candidates : chunk.candidates with
  | nil => rfl
  | cons candidate others =>
    rw [flatMap_cons, tail_cons]
    congr 1
    apply filterMap_congr
    intro part mem
    exact (single candidate (candidates ▸ mem_cons_self) part mem).call?.symm

/-- The calls of a stream: those that are read, and those that are not. -/
theorem perm_calls
    (single : ∀ chunk ∈ chunks, ∀ candidate ∈ chunk.candidates, ∀ part ∈ candidate.parts,
      part.Single) :
    (chunks.flatMap StreamChunk.calls).Perm
      ((allPlacedCalls chunks).map Prod.snd ++ chunks.flatMap StreamChunk.unreadCalls) := by
  have split : chunks.flatMap StreamChunk.calls = chunks.flatMap fun chunk =>
      (placedCalls 0 chunk.parts).map Prod.snd ++ chunk.unreadCalls :=
    flatMap_congr fun chunk mem => StreamChunk.calls_eq (single chunk mem)
  rw [split, allPlacedCalls, map_flatMap]
  exact (flatMap_append_perm _ _ _).symm

/-- A stream of chunks is collected with all its calls: every call is one tool
use. -/
def CallsCollected [SerdeJson V] [JsonText V] (debug : ContentBlockDelta V → String)
    (sent : List (Except ProviderError (ProviderEvent V))) (calls : List (FunctionCall V)) : Prop :=
  ∃ response, collectResponseFromStream debug sent = .ok response ∧
    (response.content.filterMap ContentBlock.call?).Perm calls

section Decoder

variable [SerdeJson V] {fromUtf8 : List UInt8 → Except String String}
  {read : String → Except String (StreamChunk V)}

/-- The frames hold these chunks. -/
def Holding (fromUtf8 : List UInt8 → Except String String)
    (read : String → Except String (StreamChunk V)) (texts : List (List UInt8))
    (chunks : List (StreamChunk V)) : Prop :=
  List.Forall₂ (fun text chunk => Sse.readFrame fromUtf8 Sse.skipsCommentsAndEvents
    (readChunk read) text = .ok (some chunk)) texts chunks

theorem parse_eq_takeChunk {text : List UInt8} {chunk : StreamChunk V}
    (holds : Sse.readFrame fromUtf8 Sse.skipsCommentsAndEvents (readChunk read) text =
      .ok (some chunk)) (requestModel : String) (state : StreamState) :
    (decoder fromUtf8 read requestModel).parse text state = state.takeChunk chunk := by
  have parsed := Sse.parseFrame_eq fromUtf8 Sse.skipsCommentsAndEvents (readChunk read)
    (fun chunk state => state.takeChunk chunk) text state
  rw [holds] at parsed
  exact parsed

theorem received_eq_emit {texts : List (List UInt8)} {front : List (StreamChunk V)}
    {last : StreamChunk V} (holding : Holding fromUtf8 read texts (front ++ [last]))
    (fine : ∀ chunk ∈ front ++ [last], chunk.error = none) (finishes : last.finishes)
    (requestModel : String) :
    Frames.received ((decoder fromUtf8 read requestModel).handed texts []) =
      (emit advance { requestModel } (front ++ [last])).1.map .ok := by
  have parses : (decoder fromUtf8 read requestModel).Parses advance
      (texts ++ if List.isEmpty ([] : List UInt8) then [] else [[]]) (front ++ [last]) := by
    rw [isEmpty_nil, if_pos rfl, append_nil]
    refine Lists.forall₂_of_mem_right holding ?_
    intro chunk mem text holds state
    rw [parse_eq_takeChunk holds, takeChunk_eq_advance (fine chunk mem)]
  have stopped := (complete_emit fine finishes requestModel).2
  have ends : ((decoder fromUtf8 read requestModel).finish
      (emit advance { requestModel } (front ++ [last])).2).2 = none := by
    simp [decoder, stopped]
  have sent := Frames.Decoder.received_handed parses ends
  rw [sent]
  exact congrArg (List.map Except.ok) (append_nil _)

theorem fine_of_collected [JsonText V] {debug : ContentBlockDelta V → String}
    {texts : List (List UInt8)} (holding : Holding fromUtf8 read texts chunks)
    {requestModel : String} {response : Response V}
    (collected : collectResponseFromStream debug
      (Frames.received ((decoder fromUtf8 read requestModel).handed texts [])) = .ok response) :
    ∀ chunk ∈ chunks, chunk.error = none := by
  obtain ⟨builder, applied, -⟩ := Outcome.bind_eq_ok_iff.mp collected
  intro chunk mem
  obtain ⟨text, memText, holds⟩ := Lists.exists_related_of_mem_right holding mem
  obtain ⟨state, sent, parsed⟩ := Frames.Decoder.exists_parse_of_received
    (ok_of_applyAll applied) memText
  rw [parse_eq_takeChunk holds] at parsed
  cases failed : chunk.error with
  | none => rfl
  | some error => simp [takeChunk, failed] at parsed

end Decoder

/-- A stream of chunks that ends with a finish reason, with arguments that are read back from
their text as they are, is collected with all its calls exactly if no chunk reports an error,
no call is in a candidate that is not read, and at every position calls are alone. -/
theorem callsCollected_iff [SerdeJson V] [JsonText V]
    (printed : ∀ value : V, SerdeJson.print value ≠ "")
    (debug : ContentBlockDelta V → String) (fromUtf8 : List UInt8 → Except String String)
    (read : String → Except String (StreamChunk V)) (requestModel : String)
    (front : List (StreamChunk V)) (last : StreamChunk V) (finishes : last.finishes)
    (reads : ∀ call ∈ (front ++ [last]).flatMap StreamChunk.calls, call.ReadsBack)
    (single : ∀ chunk ∈ front ++ [last], ∀ candidate ∈ chunk.candidates,
      ∀ part ∈ candidate.parts, part.Single)
    (texts : List (List UInt8)) (holding : Holding fromUtf8 read texts (front ++ [last])) :
    CallsCollected debug
        (Frames.received ((decoder fromUtf8 read requestModel).handed texts []))
        ((front ++ [last]).flatMap StreamChunk.calls) ↔
      (∀ chunk ∈ front ++ [last], chunk.error = none ∧ chunk.unreadCalls = []) ∧
        ∀ index, CallsAlone (signalsAt index (front ++ [last])) := by
  have calls := perm_calls single
  constructor
  · rintro ⟨response, collected, perm⟩
    have fine := fine_of_collected holding collected
    have complete := (complete_emit fine finishes requestModel).1
    rw [received_eq_emit holding fine finishes] at collected
    obtain ⟨blocks, collects, built⟩ :=
      (collect_iff debug complete).mp ⟨response, collected, rfl⟩
    have bound := length_calls_le printed fine collects built
    have total := perm.length_eq.trans calls.length_eq
    rw [length_append, length_map] at total
    have unread : (front ++ [last]).flatMap StreamChunk.unreadCalls = [] :=
      eq_nil_of_length_eq_zero (by omega)
    refine ⟨fun chunk mem => ⟨fine chunk mem, ?_⟩, bound.2 (by omega)⟩
    exact flatMap_eq_nil_iff.mp unread chunk mem
  · rintro ⟨good, alone⟩
    have fine : ∀ chunk ∈ front ++ [last], chunk.error = none := fun chunk mem => (good chunk mem).1
    have complete := (complete_emit fine finishes requestModel).1
    have unread : (front ++ [last]).flatMap StreamChunk.unreadCalls = [] :=
      flatMap_eq_nil_iff.mpr fun chunk mem => (good chunk mem).2
    rw [unread, append_nil] at calls
    obtain ⟨blocks, content, collects, built, perm⟩ :=
      exists_content_of_callsAlone printed (fun call mem => reads call (calls.mem_iff.mpr mem))
        fine finishes alone
    obtain ⟨response, collected, rfl⟩ :=
      (collect_iff debug complete).mpr ⟨blocks, collects, built⟩
    rw [← received_eq_emit holding fine finishes] at collected
    exact ⟨response, collected, perm.trans calls.symm⟩

/-- A chunk of these parts. -/
def chunkOf (parts : List (Part V)) (finishReason : Option String) : StreamChunk V :=
  { candidates := [{ content := some ⟨parts⟩, finishReason }] }

def callPart (name : String) : Part Unit :=
  { functionCall := some ⟨name, ()⟩ }

/-- Payloads that stand for chunks of a text, of a call, and of both. -/
def readShort : String → Except String (StreamChunk Unit)
  | "1" => .ok (chunkOf [{ text := some "Hi" }] none)
  | "2" => .ok (chunkOf [callPart "f"] none)
  | "3" => .ok (chunkOf [callPart "g"] (some "STOP"))
  | "4" => .ok (chunkOf [{ text := some "!" }, callPart "g"] (some "STOP"))
  | _ => .error "expected value"

/-- The frame `data: ` with one digit. -/
def digitFrame (digit : UInt8) : List UInt8 :=
  [100, 97, 116, 97, 58, 32, 48 + digit]

/-- The content collected of the frames with these digits. -/
def collectedContent (digits : List UInt8) : Option (List (ContentBlock Unit)) :=
  (collectResponseFromStream (fun _ => "") (Frames.received
    ((decoder Sse.ofAscii readShort "m").handed (digits.map digitFrame) []))).toOption.map
      Response.content

/-- A call in the chunk after a text has its position, and the collector refuses its input; of
two calls in two chunks the second is missing. -/
theorem call_in_next_chunk_lost :
    collectedContent [1, 3] = none ∧
      collectedContent [2, 3] = some [.toolUse "gemini-m-0-f" "f" ()] := by
  decide +kernel

/-- A call at the position after the text is collected. -/
theorem call_beside_text_collected :
    CallsCollected (fun _ => "") (Frames.received
      ((decoder Sse.ofAscii readShort "m").handed (([1, 4] : List UInt8).map digitFrame) []))
      [⟨"g", ()⟩] := by
  refine (callsCollected_iff (by decide) (fun _ => "") Sse.ofAscii readShort
    "m" [chunkOf [{ text := some "Hi" }] none]
    (chunkOf [{ text := some "!" }, callPart "g"] (some "STOP")) rfl (fun _ _ => rfl) ?_ _
    (.cons (by decide +kernel) (.cons (by decide +kernel) .nil))).mpr ⟨?_, ?_⟩
  · simp [chunkOf, Candidate.parts, callPart, Part.Single]
  · decide
  · intro index
    rw [← run_free_text_iff.1]
    rcases index with _ | _ | index
    · rfl
    · rfl
    · rfl

end Gemini

end Mentra
