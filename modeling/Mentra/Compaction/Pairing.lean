import Mentra.Compaction.Chain

/-!
# Tool calls and their results across a compaction

The rule for the tail looks at the last two entries only, so a result survives without its
call whenever something was recorded between the assistant turn and its tool exchange.
`Paired` says that every tool result has its call earlier on the path.
-/

namespace Mentra

open Mentra.Foundation List

namespace TranscriptItem

variable {V : Type}

def toolUseIds (item : TranscriptItem V) : List String :=
  (item.message.map Message.toolUseIds).getD []

def toolResultIds (item : TranscriptItem V) : List String :=
  (item.message.map Message.toolResultIds).getD []

/-- The calls an entry makes: the tool-use blocks of an assistant turn. -/
def callIds (item : TranscriptItem V) : List String :=
  if item.kind.isAssistantTurn then item.toolUseIds else []

/-- Equality of entries up to the parent link. -/
structure SameEntry (item other : TranscriptItem V) : Prop where
  id : item.id = other.id
  kind : item.kind = other.kind
  message : item.message = other.message
  details : item.details = other.details

namespace SameEntry

variable {item other : TranscriptItem V}

theorem toolUseIds (same : SameEntry item other) : item.toolUseIds = other.toolUseIds := by
  rw [TranscriptItem.toolUseIds, same.message, TranscriptItem.toolUseIds]

theorem toolResultIds (same : SameEntry item other) : item.toolResultIds = other.toolResultIds := by
  rw [TranscriptItem.toolResultIds, same.message, TranscriptItem.toolResultIds]

theorem callIds (same : SameEntry item other) : item.callIds = other.callIds := by
  rw [TranscriptItem.callIds, same.kind, same.toolUseIds, TranscriptItem.callIds]

end SameEntry

end TranscriptItem

namespace Compaction

open AgentTranscript TranscriptItem

variable {V : Type}

/-! ## Pairing -/

/-- Every tool result of the entries names a call made before it, where
`called` are the calls made before the first entry. -/
def PairedAfter : List String → List (TranscriptItem V) → Prop
  | _, [] => True
  | called, item :: rest =>
    (∀ id ∈ item.toolResultIds, id ∈ called) ∧ PairedAfter (called ++ item.callIds) rest

/-- Every tool result on the path has its call on an earlier assistant turn. -/
def Paired (items : List (TranscriptItem V)) : Prop :=
  PairedAfter [] items

/-- Every call that survives from `before` into `after` keeps its result: its turn was an entry
of `before`, and whichever of its calls had a result after it there has one in `after`. -/
def KeepsResults (before after : List (TranscriptItem V)) : Prop :=
  ∀ front caller rest, after = front ++ caller :: rest → caller.kind.isAssistantTurn →
    ∃ front' origin rest', before = front' ++ origin :: rest' ∧ SameEntry caller origin ∧
      ∀ id ∈ caller.toolUseIds, (∃ result ∈ rest', id ∈ result.toolResultIds) →
        ∃ result ∈ rest, id ∈ result.toolResultIds

instance decidablePairedAfter (called : List String) (items : List (TranscriptItem V)) :
    Decidable (PairedAfter called items) :=
  match items with
  | [] => .isTrue trivial
  | item :: rest =>
    have : Decidable (PairedAfter (called ++ item.callIds) rest) := decidablePairedAfter _ rest
    inferInstanceAs (Decidable (_ ∧ _))

instance (items : List (TranscriptItem V)) : Decidable (Paired items) :=
  decidablePairedAfter [] items

theorem pairedAfter_append (called : List String) (front rest : List (TranscriptItem V)) :
    PairedAfter called (front ++ rest) ↔
      PairedAfter called front ∧ PairedAfter (called ++ front.flatMap callIds) rest := by
  induction front generalizing called with
  | nil => simp [PairedAfter]
  | cons item front ih =>
    rw [cons_append, PairedAfter, PairedAfter, ih, flatMap_cons, append_assoc, and_assoc]

variable {items : List (TranscriptItem V)}

/-- Entries that make no calls are paired when they hold no results. -/
theorem pairedAfter_nil_iff (noCalls : ∀ item ∈ items, item.callIds = []) :
    PairedAfter [] items ↔ ∀ item ∈ items, item.toolResultIds = [] := by
  induction items with
  | nil => simp [PairedAfter]
  | cons item items ih =>
    have rest := ih fun other mem => noCalls other (mem_cons_of_mem _ mem)
    rw [PairedAfter, noCalls item mem_cons_self, append_nil, rest, forall_mem_cons]
    refine and_congr_left' ?_
    simp [eq_nil_iff_forall_not_mem]

/-! ## Linking changes no block -/

theorem linkFrom_sameEntry (previous : Option EntryId) (items : List (TranscriptItem V)) :
    Forall₂ SameEntry (linkFrom previous items) items := by
  induction items generalizing previous with
  | nil => exact .nil
  | cons item items ih =>
    refine .cons ?_ (ih _)
    split <;> exact ⟨rfl, rfl, rfl, rfl⟩

theorem pairedAfter_congr {others : List (TranscriptItem V)}
    (same : Forall₂ SameEntry items others) (called : List String) :
    PairedAfter called items ↔ PairedAfter called others := by
  induction same generalizing called with
  | nil => rfl
  | cons head _ ih => rw [PairedAfter, PairedAfter, head.toolResultIds, head.callIds, ih]

/-- A position in a linked list is a position in the list itself. -/
theorem exists_split_of_sameEntry {linked front rest : List (TranscriptItem V)}
    {caller : TranscriptItem V} (same : Forall₂ SameEntry linked items)
    (split : linked = front ++ caller :: rest) :
    ∃ front' origin rest', items = front' ++ origin :: rest' ∧ SameEntry caller origin ∧
      Forall₂ SameEntry rest rest' := by
  subst split
  induction front generalizing items with
  | nil =>
    cases same with
    | cons head tail => exact ⟨[], _, _, rfl, head, tail⟩
  | cons item front ih =>
    cases same with
    | cons head tail =>
      obtain ⟨front', origin, rest', rfl, sameCaller, sameRest⟩ := ih tail
      exact ⟨_ :: front', origin, rest', rfl, sameCaller, sameRest⟩

variable {item : TranscriptItem V}

/-! ## The tail -/

/-- A final tool exchange directly after an assistant turn is kept with that turn, unless the
two are the whole path; any other last entry is kept alone. -/
def TailCallsItsResults (items : List (TranscriptItem V)) : Prop :=
  match items.reverse with
  | last :: before :: older =>
    if last.kind.isToolExchange && before.kind.isAssistantTurn then
      older = [] ∨ (before.toolResultIds = [] ∧ ∀ id ∈ last.toolResultIds, id ∈ before.toolUseIds)
    else last.toolResultIds = []
  | _ => True

theorem tailCallsItsResults_concat (older : List (TranscriptItem V))
    (before last : TranscriptItem V) :
    TailCallsItsResults (older ++ [before, last]) ↔
      if last.kind.isToolExchange && before.kind.isAssistantTurn then
        older = [] ∨ (before.toolResultIds = [] ∧ ∀ id ∈ last.toolResultIds, id ∈ before.toolUseIds)
      else last.toolResultIds = [] := by
  simp [TailCallsItsResults]

theorem Cut.paired_tail_iff {compacted tail : List (TranscriptItem V)}
    (cut : Cut items compacted tail) : Paired tail ↔ TailCallsItsResults items := by
  cases cut with
  | whole _ unit =>
    refine ⟨fun _ => ?_, fun _ => trivial⟩
    unfold SummarizedWhole at unit
    split at unit
    · trivial
    · rename_i assistant exchange
      have shape := tailCallsItsResults_concat [] assistant exchange
      simp only [nil_append, unit.1, unit.2] at shape
      exact shape.mpr (by simp)
    · exact unit.elim
  | exchange older assistant exchange nonempty calls answers =>
    rw [tailCallsItsResults_concat]
    simp [Paired, PairedAfter, callIds, calls, answers, nonempty, eq_nil_iff_forall_not_mem]
  | last older before last apart =>
    rw [tailCallsItsResults_concat, if_neg (by simpa using apart)]
    simp [Paired, PairedAfter, eq_nil_iff_forall_not_mem]

/-! ## The replacement -/

section Engine

variable [DecidableEq V] {env : CompactionEnv V} {request : CompactionRequest V}

theorem not_assistantTurn_of_mem_salvaged (mem : item ∈ salvaged env request) :
    item.kind.isAssistantTurn = false := by
  obtain ⟨older, newer, -, kind⟩ := mem_salvaged_iff.mp mem
  rw [← Bool.not_eq_true]
  intro assistant
  obtain ⟨notTurn, notResult⟩ := not_salvageable (.inl assistant)
  rcases kind with turn | result
  · exact absurd turn.1 (by simp [notTurn])
  · exact absurd result.1 (by simp [notResult])

variable (summary : CompactionSummary)

/-- The entries in front of the tail are no assistant turns. -/
theorem not_assistantTurn_of_mem_front
    (mem : item ∈ salvaged env request ++ [compactionSummary env.summaryId summary]) :
    item.kind.isAssistantTurn = false := by
  rcases mem_append.mp mem with salvage | isSummary
  · exact not_assistantTurn_of_mem_salvaged salvage
  · rw [mem_singleton.mp isSummary]
    rfl

theorem paired_replacement_iff :
    Paired (replacement env request summary) ↔
      (∀ item ∈ salvaged env request, item.toolResultIds = []) ∧
        Paired (request.transcript.items.drop (tailStart request.transcript.items)) := by
  have noCalls : ∀ item ∈
      salvaged env request ++ [compactionSummary env.summaryId summary],
      item.callIds = [] := by
    intro item mem
    rw [callIds, not_assistantTurn_of_mem_front summary mem]
    rfl
  have noneCalled : (salvaged env request ++
      [compactionSummary env.summaryId summary]).flatMap callIds = [] :=
    flatMap_eq_nil_iff.mpr noCalls
  rw [Paired, replacement, pairedAfter_append, noneCalled, pairedAfter_nil_iff noCalls]
  rw [append_nil, forall_mem_append]
  refine and_congr_left' ⟨fun both => both.1, fun front => ⟨front, ?_⟩⟩
  intro item mem
  rw [mem_singleton.mp mem]
  rfl

/-- A surviving call sits in the tail, which is kept to its end. -/
theorem keepsResults_replacement :
    KeepsResults request.transcript.items
      (AgentTranscript.new (replacement env request summary)).items := by
  intro front caller rest split assistant
  obtain ⟨front', origin, rest', origin_split, same, sameRest⟩ :=
    exists_split_of_sameEntry (linkFrom_sameEntry none _) split
  rw [same.kind] at assistant
  have inTail : ∃ between, request.transcript.items.drop (tailStart request.transcript.items) =
      between ++ origin :: rest' := by
    rw [replacement, append_eq_append_iff] at origin_split
    rcases origin_split with ⟨between, -, tail⟩ | ⟨between, early, tail⟩
    · exact ⟨between, tail⟩
    · cases between with
      | nil => exact ⟨[], by simpa using tail.symm⟩
      | cons first between =>
        cases tail
        have mem : origin ∈ salvaged env request ++ [compactionSummary env.summaryId summary] := by
          rw [early]
          simp
        have other := not_assistantTurn_of_mem_front summary mem
        rw [assistant] at other
        cases other
  obtain ⟨between, tail⟩ := inTail
  refine ⟨compactedItems request.transcript.items ++ between, origin, rest', ?_, same, ?_⟩
  · rw [append_assoc, ← tail]
    exact (take_append_drop _ _).symm
  · rintro id - ⟨result, mem, holds⟩
    obtain ⟨kept, keptMem, keptSame⟩ := Lists.exists_related_of_mem_right sameRest mem
    exact ⟨kept, keptMem, keptSame.toolResultIds ▸ holds⟩

/-- No salvaged entry holds a tool result, and the kept tail makes the calls its results answer. -/
structure KeepsPairs (env : CompactionEnv V) (request : CompactionRequest V) : Prop where
  salvage : ∀ older item newer,
    compactedItems request.transcript.items = older ++ item :: newer →
    (UserTurnSalvaged env.approxTokenCount request.preserveRecentUserTokens newer item ∨
      DelegationResultSalvaged request.preserveRecentDelegationResults newer item) →
    item.toolResultIds = []
  tail : TailCallsItsResults request.transcript.items

/-- A compacted transcript has the call of each of its tool results earlier on
its path, and keeps the results of the calls it keeps, exactly under
`KeepsPairs`. -/
theorem compact_paired_iff {outcome : CompactionOutcome V}
    (compacted : compact env request = .ok (some outcome)) :
    (Paired outcome.transcript.items ∧
        KeepsResults request.transcript.items outcome.transcript.items) ↔
      KeepsPairs env request := by
  obtain ⟨nonempty, result⟩ := compact_eq_some compacted
  have cut := cut_of_compactedItems nonempty
  have linked : Paired outcome.transcript.items ↔
      Paired (replacement env request outcome.summary) := by
    rw [result]
    exact pairedAfter_congr (linkFrom_sameEntry none _) []
  rw [linked, paired_replacement_iff, cut.paired_tail_iff]
  constructor
  · rintro ⟨⟨salvage, tail⟩, -⟩
    refine ⟨?_, tail⟩
    intro older item newer split kind
    exact salvage item (mem_salvaged_iff.mpr ⟨older, newer, split, kind⟩)
  · rintro ⟨salvage, tail⟩
    refine ⟨⟨?_, tail⟩, result ▸ keepsResults_replacement outcome.summary⟩
    intro item mem
    obtain ⟨older, newer, split, kind⟩ := mem_salvaged_iff.mp mem
    exact salvage older item newer split kind

end Engine

namespace DelegatedCall

/-- The delegation a task call records. -/
def delegation : DelegationArtifact :=
  { kind := .subagent, agentId := "worker", agentName := "Worker", role := none,
    status := .finished, taskSummary := "look", resultSummary := none, artifacts := [] }

def ask : TranscriptItem Unit :=
  ⟨⟨"ask"⟩, none, .userTurn, some (Message.user (.text "go")), none⟩

def call : TranscriptItem Unit :=
  ⟨⟨"call"⟩, some ⟨"ask"⟩, .assistantTurn, some (Message.assistant (.toolUse "A" "task" ())), none⟩

def requested : TranscriptItem Unit :=
  ⟨⟨"requested"⟩, some ⟨"call"⟩, .delegationRequest delegation none, none, none⟩

def delivered : TranscriptItem Unit :=
  ⟨⟨"delivered"⟩, some ⟨"requested"⟩, .delegationResult delegation none, none, none⟩

/-- The tool exchange of the call, recorded after `parent`. -/
def answer (parent : EntryId) : TranscriptItem Unit :=
  ⟨⟨"answer"⟩, some parent, .toolExchange (some "A") false,
    some (Message.user (.toolResult "A" (.text "done") false)), none⟩

/-- A task call with the delegation entries between the call and its result. -/
def delegatedCall : AgentTranscript Unit where
  items := [ask, call, requested, delivered, answer ⟨"delivered"⟩]

/-- The same call answered directly. -/
def directCall : AgentTranscript Unit where
  items := [ask, call, answer ⟨"call"⟩]

/-- Compacting a delegated call drops the call and keeps its result. -/
theorem delegatedCall_compact_not_paired :
    Paired delegatedCall.items ∧
      ∃ outcome, compact (quietEnv ⟨"summary"⟩) ⟨delegatedCall, 100, 1, .localOnly⟩ =
          .ok (some outcome) ∧
        ¬ Paired outcome.transcript.items := by
  refine ⟨by decide, _, rfl, by decide⟩

theorem directCall_compact_paired :
    ∃ outcome, compact (quietEnv ⟨"summary"⟩) ⟨directCall, 100, 1, .localOnly⟩ =
        .ok (some outcome) ∧
      Paired outcome.transcript.items ∧ KeepsResults directCall.items outcome.transcript.items := by
  obtain ⟨outcome, compacted⟩ : ∃ outcome, compact (quietEnv ⟨"summary"⟩)
      ⟨directCall, 100, 1, .localOnly⟩ = .ok (some outcome) := ⟨_, rfl⟩
  refine ⟨outcome, compacted, (compact_paired_iff compacted).mpr ⟨?_, ?_⟩⟩
  · intro older item newer split _
    have single : [ask] = older ++ item :: newer := split
    have mem : item ∈ [ask] := single ▸ mem_append_right _ mem_cons_self
    rw [mem_singleton.mp mem]
    rfl
  · exact .inr ⟨rfl, by decide⟩

end DelegatedCall

end Compaction

end Mentra
