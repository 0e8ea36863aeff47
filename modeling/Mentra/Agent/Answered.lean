import Mentra.Agent.Steps
import Mentra.Compaction.Pairing
import Mentra.Message.Answered

/-!
# Answered calls across the steps of an agent

A transcript is `AnsweredWith rest` when its messages, followed by `rest`, have every call
answered; while tools run, `rest` is the message with their results.  Every step but the
commit of a turn keeps this.  A compaction keeps a tail of the path, and what it puts in
front does not speak for the assistant, if the kinds of the entries fit their roles.
-/

namespace Mentra

open Foundation Compaction List

variable {V : Type}

variable {item : TranscriptItem V}

namespace TranscriptItem

/-- An entry of a kind that compactions copy does not speak for the assistant. -/
def RoleFits (item : TranscriptItem V) : Prop :=
  item.isRealUserTurn ∨ item.isDelegationResult →
    ∀ message ∈ item.message, message.role ≠ .assistant

instance (item : TranscriptItem V) : Decidable item.RoleFits :=
  inferInstanceAs (Decidable (_ → _))

theorem RoleFits.of_role {message : Message V} (holds : item.message = some message)
    (role : message.role ≠ .assistant) : item.RoleFits := by
  intro _ other mem
  rw [holds, Option.mem_some_iff] at mem
  rw [← mem]
  exact role

theorem roleFits_ofMessage (id : EntryId) (message : Message V) :
    (ofMessage id message).RoleFits := by
  by_cases speaks : message.role = .assistant
  · have kind : ofMessage id message = assistantTurn id message := by
      rw [ofMessage, speaks]
    rw [kind]
    rintro (turn | result)
    · cases turn
    · cases result
  · exact .of_role (ofMessage_message id message) speaks

end TranscriptItem

namespace AgentTranscript

/-- The calls on the active path are answered on it or in `rest`. -/
structure AnsweredWith (rest : List (Message V)) (transcript : AgentTranscript V) : Prop where
  answered : Message.Answered (transcript.toMessages ++ rest)
  fits : ∀ item ∈ transcript.items, item.RoleFits

namespace AnsweredWith

variable {rest : List (Message V)} {transcript : AgentTranscript V}

theorem push (before : transcript.AnsweredWith (item.message.toList ++ rest))
    (fits : item.RoleFits) :
    (transcript.push item).AnsweredWith rest where
  answered := by
    rw [toMessages_push, append_assoc]
    exact before.answered
  fits other mem := by
    rcases mem_append.mp mem with old | new
    · exact before.fits other old
    · rw [mem_singleton.mp new]
      exact fits

theorem push_plain {message : Message V} (before : transcript.AnsweredWith rest)
    (holds : item.message = some message) (plain : message.IsPlain) :
    (transcript.push item).AnsweredWith rest := by
  apply push
  · rw [holds]
    exact ⟨.insert plain before.answered, before.fits⟩
  · exact .of_role holds plain.role

theorem of_entries {items : List (TranscriptItem V)}
    (answered : Message.Answered (items.filterMap TranscriptItem.message ++ rest))
    (fits : ∀ item ∈ items, item.RoleFits) : (AgentTranscript.new items).AnsweredWith rest where
  answered := by
    have linked : (AgentTranscript.new items).toMessages = items.filterMap TranscriptItem.message :=
      Lists.filterMap_eq_of_forall₂ (fun _ _ same => same.message) (linkFrom_sameEntry none items)
    rw [linked]
    exact answered
  fits item mem := by
    obtain ⟨front, back, split⟩ := append_of_mem mem
    obtain ⟨_, origin, _, origins, same, -⟩ :=
      exists_split_of_sameEntry (linkFrom_sameEntry none items) split
    rw [TranscriptItem.RoleFits, TranscriptItem.isRealUserTurn, TranscriptItem.isDelegationResult,
      same.kind, same.message]
    apply fits
    rw [origins]
    exact mem_append_right _ mem_cons_self

variable [DecidableEq V]

/-- What a compaction puts in front of the tail does not speak for the
assistant. -/
theorem silent_front (engine : CompactionEnv V) {request : CompactionRequest V}
    (fits : ∀ item ∈ request.transcript.items, item.RoleFits) (summary : CompactionSummary) :
    ∀ item ∈ Compaction.salvaged engine request ++
        [TranscriptItem.compactionSummary engine.summaryId summary],
      item.RoleFits ∧ ∀ message ∈ item.message, message.role ≠ .assistant := by
  intro item mem
  rcases mem_append.mp mem with copied | last
  · obtain ⟨older, newer, split, chosen⟩ := mem_salvaged_iff.mp copied
    have onPath : item ∈ request.transcript.items := by
      apply mem_of_mem_take
      rw [← Compaction.compactedItems, split]
      exact mem_append_right _ mem_cons_self
    refine ⟨fits item onPath, fits item onPath ?_⟩
    rcases chosen with user | delegation
    · exact .inl user.1
    · exact .inr delegation.1
  · have role : ∀ message ∈ item.message, message.role ≠ .assistant := by
      rw [mem_singleton.mp last]
      rintro message ⟨⟩
      rintro ⟨⟩
    exact ⟨fun _ => role, role⟩

theorem compact {engine : CompactionEnv V} {request : CompactionRequest V}
    {outcome : CompactionOutcome V}
    (compacted : Compaction.compact engine request = .ok (some outcome))
    (before : request.transcript.AnsweredWith rest) : outcome.transcript.AnsweredWith rest := by
  obtain ⟨-, transcript⟩ := compact_eq_some compacted
  rw [transcript, Compaction.replacement]
  have front := silent_front engine before.fits outcome.summary
  apply of_entries
  · rw [filterMap_append, append_assoc]
    apply Message.Answered.of_no_assistant
    · intro message mem
      obtain ⟨item, onFront, holds⟩ := mem_filterMap.mp mem
      exact (front item onFront).2 message holds
    · have answered := before.answered
      rw [toMessages, ← take_append_drop (Compaction.tailStart request.transcript.items)
        request.transcript.items, filterMap_append, append_assoc] at answered
      exact answered.suffix
  · intro item mem
    rcases mem_append.mp mem with onFront | onTail
    · exact (front item onFront).1
    · exact before.fits item (mem_of_mem_drop onTail)

end AnsweredWith

end AgentTranscript

namespace Agent

/-- The calls in an agent's history are answered in it or in `rest`. -/
def AnsweredWith (rest : List (Message V)) (agent : Agent V) : Prop :=
  agent.memory.state.transcript.AnsweredWith rest

/-- No host has entered tool results of its own. -/
def HostPlain (agent : Agent V) : Prop :=
  ∀ content ∈ agent.ledger.injected, (⟨.user, content⟩ : Message V).toolResultIds = []

instance (agent : Agent V) : Decidable agent.HostPlain :=
  inferInstanceAs (Decidable (∀ content ∈ agent.ledger.injected, _))

variable {rest : List (Message V)} {agent next : Agent V}

variable [DecidableEq V] {allowed : MarkedStep → Prop}

theorem Moves.hostPlain (moves : Moves allowed agent next) (plain : next.HostPlain) :
    agent.HostPlain := by
  induction moves with
  | refl => exact plain
  | tail _ step ih => exact ih fun content mem => plain content (step.effect.2.1 mem)

theorem AnsweredWith.step (step : Step allowed agent next) (noTurn : ¬ allowed .turn)
    (plain : next.HostPlain) (answered : agent.AnsweredWith rest) : next.AnsweredWith rest := by
  cases step.effect.2.2 with
  | quiet transcript =>
    rw [AnsweredWith, transcript]
    exact answered
  | records last transcript _ _ _ _ spoken =>
    rw [AnsweredWith, transcript]
    rcases spoken.resolve_left noTurn with ⟨text, message⟩ | ⟨content, entered, message⟩
    · exact answered.push_plain message (Message.isPlain_user_text text)
    · exact answered.push_plain message ⟨nofun, plain content entered⟩
  | compacts engine outcome compacted isNext =>
    rw [AnsweredWith, isNext, applyCompaction, AgentMemory.tryApplyCompaction, if_pos rfl]
    exact AgentTranscript.AnsweredWith.compact compacted answered

/-- Whatever an agent does without committing a turn keeps calls answered. -/
theorem AnsweredWith.moves (moves : Moves allowed agent next) (noTurn : ¬ allowed .turn)
    (plain : next.HostPlain) (answered : agent.AnsweredWith rest) : next.AnsweredWith rest := by
  induction moves with
  | refl => exact answered
  | tail _ step ih =>
    have earlier : HostPlain _ := fun content mem => plain content (step.effect.2.1 mem)
    exact (ih earlier).step step noTurn plain

end Agent

end Mentra
