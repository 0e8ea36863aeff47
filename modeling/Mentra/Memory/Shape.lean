import Mentra.Foundation.Lists
import Mentra.Memory.ToolResults

/-!
# Histories that differ in tool-result content only

`SameShape` relates two histories with the same messages, roles and blocks, up to the content
of tool results.  Writing at a location keeps the shape and the content everywhere else.
-/

namespace Mentra.Memory

open Mentra.Foundation List

variable {V : Type}

/-- Equal blocks, or tool results with the same call and error flag. -/
inductive SameBlock : ContentBlock V → ContentBlock V → Prop
  | same (block : ContentBlock V) : SameBlock block block
  | result (toolUseId : String) (content projected : ToolResultContent V) (isError : Bool) :
      SameBlock (.toolResult toolUseId content isError) (.toolResult toolUseId projected isError)

/-- Equal roles and, block by block, the same blocks up to content. -/
structure SameMessage (message projected : Message V) : Prop where
  role : message.role = projected.role
  content : Forall₂ SameBlock message.content projected.content

/-- The same messages up to the content of tool results. -/
def SameShape (history projected : List (Message V)) : Prop :=
  Forall₂ SameMessage history projected

/-- The contents of all tool results, in history order. -/
def resultContents (history : List (Message V)) : List (ToolResultContent V) :=
  history.flatMap fun message => message.content.filterMap resultContent

/-- Where a location points. -/
def position (location : ToolResultLocation) : Nat × Nat :=
  (location.messageIndex, location.blockIndex)

theorem SameBlock.trans {first second third : ContentBlock V} (left : SameBlock first second)
    (right : SameBlock second third) : SameBlock first third := by
  cases left with
  | same => exact right
  | result toolUseId content projected isError =>
    cases right with
    | same | result => exact .result ..

variable {block projected : ContentBlock V}

theorem SameBlock.toolUseId? (same : SameBlock block projected) :
    block.toolUseId? = projected.toolUseId? := by
  cases same <;> rfl

theorem SameBlock.toolResultId?
    (same : SameBlock block projected) : block.toolResultId? = projected.toolResultId? := by
  cases same <;> rfl

theorem SameMessage.refl (message : Message V) : SameMessage message message :=
  ⟨rfl, forall₂_same.mpr fun block _ => .same block⟩

theorem SameMessage.trans {first second third : Message V} (left : SameMessage first second)
    (right : SameMessage second third) : SameMessage first third :=
  ⟨left.role.trans right.role,
    Lists.forall₂_trans (fun _ _ _ one two => one.trans two) left.content right.content⟩

theorem SameShape.refl (history : List (Message V)) : SameShape history history :=
  forall₂_same.mpr fun message _ => .refl message

theorem SameShape.trans {first second third : List (Message V)} (left : SameShape first second)
    (right : SameShape second third) : SameShape first third := by
  refine Lists.forall₂_trans ?_ left right
  intro _ _ _ one two
  exact one.trans two

/-! ## Reading and writing at a location -/

variable {messages : List (Message V)} {location : ToolResultLocation}
  {content : ToolResultContent V}

/-- A readable location points at a tool-result block. -/
theorem projectedContent_eq_some_iff :
    projectedContent messages location = some content ↔
      ∃ message toolUseId isError, messages[location.messageIndex]? = some message ∧
        message.content[location.blockIndex]? = some (.toolResult toolUseId content isError) := by
  simp only [projectedContent, Option.bind_eq_bind, Option.bind_eq_some_iff]
  constructor
  · rintro ⟨message, found, block, blockFound, read⟩
    cases block <;> cases read
    exact ⟨message, _, _, found, blockFound⟩
  · rintro ⟨message, toolUseId, isError, found, block⟩
    exact ⟨message, found, _, block, rfl⟩

theorem projectedContent_congr {other : ToolResultLocation}
    (same : position location = position other) :
    projectedContent messages location = projectedContent messages other := by
  obtain ⟨messageIndex, blockIndex⟩ := Prod.mk.inj same
  rw [projectedContent, messageIndex, blockIndex, projectedContent]

/-- Writing at a readable location keeps the shape and every other location, and the location
reads what was written. -/
theorem setProjectedContent_spec {current : ToolResultContent V}
    (read : projectedContent messages location = some current) (content : ToolResultContent V) :
    ∃ written, setProjectedContent messages location content = some written ∧
      SameShape messages written ∧ projectedContent written location = some content ∧
      ∀ other, position other ≠ position location →
        projectedContent written other = projectedContent messages other := by
  obtain ⟨message, toolUseId, isError, found, block⟩ := projectedContent_eq_some_iff.mp read
  have messageBound := (List.getElem?_eq_some_iff.mp found).1
  have blockBound := (List.getElem?_eq_some_iff.mp block).1
  have wrote : setProjectedContent messages location content =
      some (messages.set location.messageIndex
        { message with
          content :=
            message.content.set location.blockIndex (.toolResult toolUseId content isError) }) := by
    simp only [setProjectedContent, found, block, Option.bind_eq_bind, Option.bind_some]
  refine ⟨_, wrote, ?_, ?_, ?_⟩
  · refine Lists.forall₂_set (fun other _ => .refl other) found ⟨rfl, ?_⟩
    exact Lists.forall₂_set (fun other _ => .same other) block (.result ..)
  · refine projectedContent_eq_some_iff.mpr ⟨_, toolUseId, isError,
      getElem?_set_self messageBound, ?_⟩
    exact getElem?_set_self blockBound
  · intro other apart
    rw [projectedContent, projectedContent, getElem?_set]
    split
    · rename_i sameMessage
      have otherBlock : location.blockIndex ≠ other.blockIndex := fun sameBlock =>
        apart (Prod.ext sameMessage.symm sameBlock.symm)
      rw [← sameMessage, found]
      simp only [Option.bind_eq_bind, Option.bind_some, getElem?_set_ne otherBlock]
    · rfl

/-! ## The locations of a history -/

variable (messageIndex start : Nat)

/-- The positions of the tool results in a message's blocks, the first of which
has index `start`. -/
def blockPositions (content : List (ContentBlock V)) : List (Nat × Nat) :=
  (content.zipIdx start).filterMap fun (block, blockIndex) =>
    (resultContent block).map fun _ => (messageIndex, blockIndex)

/-- The positions of the tool results in a history whose first message has
index `start`. -/
def positionsFrom (history : List (Message V)) : List (Nat × Nat) :=
  (history.zipIdx start).flatMap fun (message, messageIndex) =>
    blockPositions messageIndex 0 message.content

theorem blockPositions_cons (block : ContentBlock V) (content : List (ContentBlock V)) :
    blockPositions messageIndex start (block :: content) =
      (if (resultContent block).isSome then [(messageIndex, start)] else []) ++
        blockPositions messageIndex (start + 1) content := by
  cases read : resultContent block <;> simp [blockPositions, zipIdx_cons, read]

theorem positionsFrom_cons (message : Message V) (history : List (Message V)) :
    positionsFrom start (message :: history) =
      blockPositions start 0 message.content ++ positionsFrom (start + 1) history := by
  simp [positionsFrom, zipIdx_cons]

theorem toolResultLocations_position (history : List (Message V)) :
    (toolResultLocations history).map position = positionsFrom 0 history := by
  rw [toolResultLocations, positionsFrom, map_flatMap]
  apply flatMap_congr
  rintro ⟨message, messageIndex⟩ -
  simp only [blockPositions, map_filterMap]
  apply filterMap_congr
  rintro ⟨block, blockIndex⟩ -
  cases block <;> rfl

/-! Positions of one message share its index and differ in the block index. -/

theorem mem_blockPositions {messageIndex start : Nat} {content : List (ContentBlock V)}
    {place : Nat × Nat} (mem : place ∈ blockPositions messageIndex start content) :
    place.1 = messageIndex ∧ start ≤ place.2 := by
  obtain ⟨⟨block, blockIndex⟩, present, read⟩ := mem_filterMap.mp mem
  obtain ⟨content, -, rfl⟩ := Option.map_eq_some_iff.mp read
  exact ⟨rfl, (mem_zipIdx present).1⟩

variable {history : List (Message V)}

theorem mem_positionsFrom {start : Nat} {place : Nat × Nat}
    (mem : place ∈ positionsFrom start history) : start ≤ place.1 := by
  obtain ⟨⟨message, messageIndex⟩, present, inMessage⟩ := mem_flatMap.mp mem
  rw [(mem_blockPositions inMessage).1]
  exact (mem_zipIdx present).1

theorem blockPositions_nodup (content : List (ContentBlock V)) :
    (blockPositions messageIndex start content).Nodup := by
  induction content generalizing start with
  | nil => exact nodup_nil
  | cons block content ih =>
    rw [blockPositions_cons]
    split
    · rw [singleton_append, nodup_cons]
      refine ⟨fun mem => ?_, ih (start + 1)⟩
      have later := (mem_blockPositions mem).2
      omega
    · exact ih (start + 1)

theorem positionsFrom_nodup (history : List (Message V)) : (positionsFrom start history).Nodup := by
  induction history generalizing start with
  | nil => exact nodup_nil
  | cons message history ih =>
    rw [positionsFrom_cons, nodup_append]
    refine ⟨blockPositions_nodup start 0 _, ih (start + 1), ?_⟩
    rintro place mem other otherMem rfl
    have here := (mem_blockPositions mem).1
    have later := mem_positionsFrom otherMem
    omega

/-! Histories of one shape have their tool results at the same positions. -/

theorem SameBlock.resultContent_isSome (same : SameBlock block projected) :
    (resultContent block).isSome = (resultContent projected).isSome := by
  cases same <;> rfl

theorem blockPositions_congr {content projected : List (ContentBlock V)}
    (same : Forall₂ SameBlock content projected) (messageIndex start : Nat) :
    blockPositions messageIndex start content = blockPositions messageIndex start projected := by
  induction same generalizing start with
  | nil => rfl
  | cons head _ ih => rw [blockPositions_cons, blockPositions_cons, head.resultContent_isSome, ih]

theorem SameShape.positionsFrom_eq {projected : List (Message V)}
    (same : SameShape history projected) (start : Nat) :
    positionsFrom start history = positionsFrom start projected := by
  induction same generalizing start with
  | nil => rfl
  | cons head _ ih =>
    rw [positionsFrom_cons, positionsFrom_cons, blockPositions_congr head.content, ih]

/-! ## Reading all locations -/

/-- A tool result a location was built for. -/
structure Locates (history : List (Message V)) (location : ToolResultLocation) (message : Message V)
    (content : ToolResultContent V) : Prop where
  found : history[location.messageIndex]? = some message
  block : message.content[location.blockIndex]? =
    some (.toolResult location.toolUseId content location.isError)
  name : location.toolName = toolName history location.toolUseId

theorem mem_toolResultLocations_iff :
    location ∈ toolResultLocations history ↔
      ∃ message content, Locates history location message content := by
  constructor
  · intro mem
    obtain ⟨⟨message, messageIndex⟩, present, inMessage⟩ := mem_flatMap.mp mem
    obtain ⟨⟨block, blockIndex⟩, blockPresent, built⟩ := mem_filterMap.mp inMessage
    cases block <;> cases built
    exact ⟨message, _, mem_zipIdx_iff_getElem?.mp present,
      mem_zipIdx_iff_getElem?.mp blockPresent, rfl⟩
  · rintro ⟨message, content, found, block, name⟩
    refine mem_flatMap.mpr ⟨(message, location.messageIndex), mem_zipIdx_iff_getElem?.mpr found, ?_⟩
    refine mem_filterMap.mpr ⟨(.toolResult location.toolUseId content location.isError,
      location.blockIndex), mem_zipIdx_iff_getElem?.mpr block, ?_⟩
    simp only [← name]

theorem Locates.unique {other : ToolResultLocation} {message otherMessage : Message V}
    {otherContent : ToolResultContent V} (located : Locates history location message content)
    (otherLocated : Locates history other otherMessage otherContent)
    (same : position other = position location) : other = location ∧ otherContent = content := by
  obtain ⟨messageIndex, blockIndex, toolUseId, name, isError⟩ := location
  obtain ⟨otherMessageIndex, otherBlockIndex, otherId, otherName, otherError⟩ := other
  cases same
  cases located.found.symm.trans otherLocated.found
  cases located.block.symm.trans otherLocated.block
  cases located.name.trans otherLocated.name.symm
  exact ⟨rfl, rfl⟩

/-- In a history of the same shape the location has the same call. -/
theorem Locates.of_sameShape {projected : List (Message V)} {message : Message V}
    (located : Locates history location message content) (same : SameShape history projected) :
    ∃ shownMessage shown, projected[location.messageIndex]? = some shownMessage ∧
      shownMessage.content[location.blockIndex]? =
        some (.toolResult location.toolUseId shown location.isError) := by
  obtain ⟨shownMessage, found, ⟨-, blocks⟩⟩ :=
    Lists.exists_getElem?_of_forall₂ same located.found
  obtain ⟨block, shown, sameBlock⟩ := Lists.exists_getElem?_of_forall₂ blocks located.block
  cases sameBlock
  · exact ⟨shownMessage, _, found, shown⟩
  · exact ⟨shownMessage, _, found, shown⟩

/-- Reading a history's own locations gives its contents, in order. -/
theorem map_projectedContent_self (history : List (Message V)) :
    (toolResultLocations history).map (projectedContent history) =
      (resultContents history).map some := by
  rw [toolResultLocations, resultContents, map_flatMap, map_flatMap]
  conv_rhs => rw [← zipIdx_map_fst 0 history, flatMap_map]
  apply flatMap_congr
  rintro ⟨message, messageIndex⟩ present
  have found := mem_zipIdx_iff_getElem?.mp present
  conv_rhs => rw [← zipIdx_map_fst 0 message.content, filterMap_map]
  rw [map_filterMap, map_filterMap]
  apply filterMap_congr
  rintro ⟨block, blockIndex⟩ blockPresent
  have blockFound := mem_zipIdx_iff_getElem?.mp blockPresent
  cases block <;>
    simp_all [projectedContent, resultContent]

/-- Reading the locations of a history in another one of its shape gives that
one's contents, in order. -/
theorem SameShape.map_projectedContent {projected : List (Message V)}
    (same : SameShape history projected) :
    (toolResultLocations history).map (projectedContent projected) =
      (resultContents projected).map some := by
  have places : (toolResultLocations history).map position =
      (toolResultLocations projected).map position := by
    rw [toolResultLocations_position, toolResultLocations_position, same.positionsFrom_eq]
  have factor : projectedContent projected =
      (fun place => projectedContent projected ⟨place.1, place.2, "", none, false⟩) ∘ position :=
    funext fun _ => projectedContent_congr rfl
  rw [← map_projectedContent_self projected, factor, ← map_map, places, map_map]

end Mentra.Memory
