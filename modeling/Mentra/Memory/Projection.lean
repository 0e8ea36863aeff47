import Mentra.Memory.Budget

/-!
# The projected history of a request

Whichever policy a request is built with, its history has the shape of the
transcript's: the same messages, roles and blocks, with the same call ids, and
only the content of tool results reduced.
-/

namespace Mentra.Memory

open Mentra.Foundation List Option

variable {V : Type}

/-! ## Ids of histories of one shape -/

theorem SameMessage.toolUseIds_eq {message projected : Message V}
    (same : SameMessage message projected) : message.toolUseIds = projected.toolUseIds :=
  Lists.filterMap_eq_of_forall₂ (fun _ _ block => block.toolUseId?) same.content

theorem SameMessage.toolResultIds_eq {message projected : Message V}
    (same : SameMessage message projected) : message.toolResultIds = projected.toolResultIds :=
  Lists.filterMap_eq_of_forall₂ (fun _ _ block => block.toolResultId?) same.content

/-! ## Keeping recent results -/

variable {place : Nat × Nat}

theorem mem_userToolResults {history : List (Message V)} (mem : place ∈ userToolResults history) :
    ∃ location message content, Locates history location message content ∧
      position location = place ∧ message.role = .user := by
  obtain ⟨⟨message, messageIndex⟩, present, inMessage⟩ := mem_flatMap.mp mem
  simp only at inMessage
  split at inMessage
  · rename_i isUser
    obtain ⟨⟨block, blockIndex⟩, blockPresent, built⟩ := mem_filterMap.mp inMessage
    cases block <;> cases built
    rename_i toolUseId content isError
    exact ⟨⟨messageIndex, blockIndex, toolUseId, toolName history toolUseId, isError⟩, message,
      content, ⟨mem_zipIdx_iff_getElem?.mp present,
        mem_zipIdx_iff_getElem?.mp blockPresent, rfl⟩, rfl, isUser⟩
  · cases inMessage

/-- The positions of the results that are rewritten if they are long enough; the
largest word keeps every result. -/
def olderResults (history : List (Message V)) (keepRecent : Nat) : List (Nat × Nat) :=
  if keepRecent = Usize.max then [] else (userToolResults history).rdrop keepRecent

theorem mem_userToolResults_of_older {history : List (Message V)} {keepRecent : Nat}
    (mem : place ∈ olderResults history keepRecent) :
    place ∈ userToolResults history := by
  unfold olderResults at mem
  split at mem
  · cases mem
  · exact mem_of_mem_take mem

section Sizes

variable [SerdeJson V]

/-- What a result shows once the results at some positions were gone through. -/
def shownAfter (rewritten : List (Nat × Nat)) (location : ToolResultLocation)
    (content : ToolResultContent V) : ToolResultContent V :=
  if position location ∈ rewritten ∧ microCompactMinContentLen < content.len then
    .text (previousToolMarker location.toolName)
  else content

/-- A history in which the results at some positions were gone through. -/
structure Marked (history : List (Message V)) (rewritten : List (Nat × Nat))
    (messages : List (Message V)) : Prop where
  shape : SameShape history messages
  shown : ∀ location ∈ toolResultLocations history, ∀ content,
    canonicalContent history location = some content →
    projectedContent messages location = some (shownAfter rewritten location content)

variable (history : List (Message V))

theorem Marked.refl : Marked history [] history := by
  refine ⟨.refl history, fun location _ content read => ?_⟩
  exact read

/-- Going through a result once more writes the marker over what is long enough. -/
theorem shownAfter_append_self (rewritten : List (Nat × Nat)) (location : ToolResultLocation)
    (content : ToolResultContent V) :
    shownAfter (rewritten ++ [position location]) location content =
      if (shownAfter rewritten location content).len ≤ microCompactMinContentLen then
        shownAfter rewritten location content
      else .text (previousToolMarker location.toolName) := by
  by_cases long : microCompactMinContentLen < content.len
  · by_cases before : position location ∈ rewritten
    · simp [shownAfter, long, before]
    · simp [shownAfter, long, before, Nat.not_le_of_lt long]
  · simp [shownAfter, long, Nat.le_of_not_lt long]

variable {rewritten : List (Nat × Nat)}

/-- One round of the loop writes at its position and nowhere else. -/
theorem markPrevious_spec {history : List (Message V)}
    {state : List (Message V) × List ElidedToolResult} (mem : place ∈ userToolResults history)
    (marked : Marked history rewritten state.1) :
    ∃ next, markPrevious history state place = some next ∧
      Marked history (rewritten ++ [place]) next.1 := by
  obtain ⟨messages, elided⟩ := state
  obtain ⟨location, message, content, located, rfl, -⟩ := mem_userToolResults mem
  obtain ⟨shownMessage, shown, found, block⟩ := located.of_sameShape marked.shape
  have read := projectedContent_eq_some_iff.mpr ⟨_, _, _, found, block⟩
  have original := projectedContent_eq_some_iff.mpr ⟨_, _, _, located.found, located.block⟩
  have isShown := Option.some.inj (read.symm.trans (marked.shown location
    (mem_toolResultLocations_iff.mpr ⟨_, _, located⟩) content original))
  -- What holds of the messages after the round, whichever they are.
  have finish {next : List (Message V)} (shape : SameShape messages next)
      (here : projectedContent next location =
        some (shownAfter (rewritten ++ [position location]) location content))
      (elsewhere : ∀ other, position other ≠ position location →
        projectedContent next other = projectedContent messages other) :
      Marked history (rewritten ++ [position location]) next := by
    refine ⟨marked.shape.trans shape, fun other present otherContent otherRead => ?_⟩
    by_cases same : position other = position location
    · obtain ⟨_, _, otherLocated⟩ := mem_toolResultLocations_iff.mp present
      obtain ⟨rfl, -⟩ := located.unique otherLocated same
      cases original.symm.trans otherRead
      exact here
    · rw [elsewhere other same]
      simp only [shownAfter, mem_append, mem_singleton, same, or_false]
      exact marked.shown other present otherContent otherRead
  obtain ⟨written, wrote, shape, here, elsewhere⟩ :=
    setProjectedContent_spec read (.text (previousToolMarker location.toolName))
  simp only [setProjectedContent, found, block, bind_eq_bind, bind_some, Option.some.injEq] at wrote
  simp only [markPrevious, position, found, block, bind_eq_bind, bind_some]
  split
  · rename_i short
    refine ⟨_, rfl, finish (.refl messages) ?_ fun _ _ => rfl⟩
    rw [shownAfter_append_self, ← isShown, if_pos short, read]
  · rename_i long
    refine ⟨_, rfl, finish ?_ ?_ ?_⟩
    · rw [← located.name, wrote]
      exact shape
    · rw [shownAfter_append_self, ← isShown, if_neg long, ← located.name, wrote]
      exact here
    · rw [← located.name, wrote]
      exact elsewhere

/-- The loop, over any of the positions. -/
theorem markLoop_spec {history : List (Message V)} {places : List (Nat × Nat)}
    {state : List (Message V) × List ElidedToolResult}
    (known : ∀ place ∈ places, place ∈ userToolResults history)
    (marked : Marked history rewritten state.1) :
    ∃ final, places.foldlM (markPrevious history) state = some final ∧
      Marked history (rewritten ++ places) final.1 := by
  induction places generalizing rewritten state with
  | nil => exact ⟨state, rfl, by rwa [append_nil]⟩
  | cons place places ih =>
    rw [forall_mem_cons] at known
    obtain ⟨next, stepped, marked⟩ := markPrevious_spec known.1 marked
    obtain ⟨final, looped, marked⟩ := ih known.2 marked
    refine ⟨final, by rw [foldlM_cons, stepped]; exact looped, ?_⟩
    rwa [append_assoc, singleton_append] at marked

theorem microCompactHistory_marked (keepRecent : Nat) :
    ∃ result, microCompactHistory history keepRecent = some result ∧
      Marked history (olderResults history keepRecent) result.messages := by
  unfold microCompactHistory olderResults
  split
  · exact ⟨_, rfl, .refl history⟩
  · simp only [List.rdrop]
    split
    · rename_i few
      refine ⟨_, rfl, ?_⟩
      rw [Nat.sub_eq_zero_of_le few]
      exact .refl history
    · rename_i many
      have initial : Marked history [] (history, ([] : List ElidedToolResult)).1 := .refl history
      obtain ⟨⟨compacted, elided⟩, looped, marked⟩ :=
        markLoop_spec (fun _ mem => mem_of_mem_take mem) initial
      rw [Usize.checkedSub_eq_some (Nat.le_of_not_le many), bind_eq_bind, bind_some, looped]
      exact ⟨_, rfl, marked⟩

/-- A request's history differs only in tool results of user messages, without the last
`keepRecent`, that are longer than the minimum.  None of them gets longer exactly when the
marker of each is no longer than its content, which this loop does not check. -/
theorem microCompactHistory_shortens_iff (history : List (Message V)) (keepRecent : Nat) :
    ∃ result, microCompactHistory history keepRecent = some result ∧
      SameShape history result.messages ∧
      (∀ location ∈ toolResultLocations history, ∀ content shown,
        canonicalContent history location = some content →
        projectedContent result.messages location = some shown → shown ≠ content →
        (∃ message, history[location.messageIndex]? = some message ∧ message.role = .user) ∧
          position location ∈ olderResults history keepRecent ∧
          microCompactMinContentLen < content.len) ∧
      ((∀ location ∈ toolResultLocations history, ∀ content shown,
          canonicalContent history location = some content →
          projectedContent result.messages location = some shown → shown.len ≤ content.len) ↔
        ∀ location ∈ toolResultLocations history, ∀ content,
          canonicalContent history location = some content →
          position location ∈ olderResults history keepRecent →
          microCompactMinContentLen < content.len →
          (previousToolMarker location.toolName).utf8ByteSize ≤ content.len) := by
  obtain ⟨result, computed, marked⟩ := microCompactHistory_marked history keepRecent
  refine ⟨result, computed, marked.shape, ?_, ?_, ?_⟩
  · intro location mem content shown original read changed
    cases read.symm.trans (marked.shown location mem content original)
    have rewrites := ite_ne_right_iff.mp changed
    obtain ⟨other, message, _, located, same, isUser⟩ :=
      mem_userToolResults (mem_userToolResults_of_older rewrites.1.1)
    refine ⟨⟨message, ?_, isUser⟩, rewrites.1⟩
    rw [← (Prod.mk.inj same).1]
    exact located.found
  · intro shorter location mem content original older long
    have shown := marked.shown location mem content original
    rw [shownAfter, if_pos ⟨older, long⟩] at shown
    exact shorter location mem content _ original shown
  · intro fits location mem content shown original read
    cases read.symm.trans (marked.shown location mem content original)
    unfold shownAfter
    split
    · rename_i rewrites
      exact fits location mem content original rewrites.1 rewrites.2
    · exact Nat.le_refl _

/-- A call of a tool with a name of a given length, and its result of `size` bytes. -/
def namedCall (nameSize size : Nat) : List (Message Unit) :=
  [⟨.assistant, [.toolUse "call" ("".pushn 'n' nameSize) ()]⟩,
    ⟨.user, [.toolResult "call" (.text ("".pushn 'r' size)) false]⟩]

/-- A name of 100 bytes makes the marker longer than the result it stands for. -/
theorem namedCall_lengthened :
    (microCompactHistory (namedCall 100 101) 0).map (fun result =>
        (resultContents (namedCall 100 101), resultContents result.messages)) =
      some ([.text ("".pushn 'r' 101)], [.text ("[Previous: used " ++ "".pushn 'n' 100 ++ "]")]) ∧
    ("".pushn 'r' 101).utf8ByteSize <
      ("[Previous: used " ++ "".pushn 'n' 100 ++ "]").utf8ByteSize := by
  decide +kernel

/-- With a name of four bytes the result becomes shorter. -/
theorem namedCall_shortened :
    ∃ result, microCompactHistory (namedCall 4 101) 0 = some result ∧
      projectedContent result.messages ⟨1, 0, "call", some "nnnn", false⟩ =
        some (.text "[Previous: used nnnn]") ∧
      (ToolResultContent.text "[Previous: used nnnn]" : ToolResultContent Unit).len ≤
        (ToolResultContent.text ("".pushn 'r' 101) : ToolResultContent Unit).len := by
  obtain ⟨result, computed, -, -, shortens⟩ := microCompactHistory_shortens_iff (namedCall 4 101) 0
  have read : (microCompactHistory (namedCall 4 101) 0).bind (fun result =>
      projectedContent result.messages ⟨1, 0, "call", some "nnnn", false⟩) =
        some (.text "[Previous: used nnnn]") := by
    decide +kernel
  rw [computed, bind_some] at read
  refine ⟨result, computed, read, ?_⟩
  have fits : ∀ location ∈ toolResultLocations (namedCall 4 101), ∀ content,
      canonicalContent (namedCall 4 101) location = some content →
      position location ∈ olderResults (namedCall 4 101) 0 →
      microCompactMinContentLen < content.len →
      (previousToolMarker location.toolName).utf8ByteSize ≤ content.len := by
    intro location mem content _ _ long
    cases mem_singleton.mp mem
    have marker : (previousToolMarker (toolName (namedCall 4 101) "call")).utf8ByteSize ≤
        microCompactMinContentLen := by
      decide +kernel
    exact marker.trans long.le
  refine shortens.mpr fits ⟨1, 0, "call", some "nnnn", false⟩ ?_ _ _ rfl read
  exact mem_toolResultLocations_iff.mpr ⟨_, _, rfl, rfl, by decide +kernel⟩

/-- Whatever the policy, the projected history has the transcript's shape. -/
theorem projectToolResultHistory_shape (keepRecent : Nat)
    (budget : Option ProjectedToolResultBudget) :
    ∃ result, projectToolResultHistory history keepRecent budget = some result ∧
      SameShape history result.messages := by
  cases budget with
  | none =>
    obtain ⟨result, computed, marked⟩ := microCompactHistory_marked history keepRecent
    exact ⟨result, computed, marked.shape⟩
  | some budget =>
    rcases budgetToolResultHistory_eq history budget with
      ⟨-, computed⟩ | ⟨-, state, results, settled, -, computed⟩
    · exact ⟨_, computed, .refl history⟩
    · exact ⟨_, computed, settled.within.shape⟩

end Sizes

end Mentra.Memory
