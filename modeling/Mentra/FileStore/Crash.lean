import Mentra.FileStore.Log
import Mentra.FileStore.Storable

/-!
# Crashes

An agent that saves its memory after every operation, on a machine that may stop
between any two writes of a save and in the middle of an append.  A process that
starts later loads the agent from the files.  What is saved is read back as it was
written only if the library for JSON does so with each of its values.
-/

namespace Mentra.FileStore

open Foundation List Transition AgentMemory
open Foundation.TextFile

variable {V : Type}

def DiskWrite.replacesState : DiskWrite → Bool
  | .replaceState _ => true
  | _ => false

/-- An agent's files, the process that runs it, the ids drawn so far and the memory of the last
snapshot put in place. -/
structure World (V : Type) where
  dir : AgentDir := {}
  live : Option (AgentMemory V × TranscriptLogIndex) := none
  drawn : List EntryId := []
  committed : Option (AgentMemoryState V) := none

/-- What happens to an agent.  A crash leaves the first writes of a save and some
bytes of the next one. -/
inductive Event (V : Type)
  | save (operation : Operation V)
  | crash (operation : Operation V) (done count : Nat)
  | restart

/-- The entries and the snapshot of a memory are read back as they are written. -/
def ReadsBack (env : StoreEnv V) (state : AgentMemoryState V) : Prop :=
  (∀ item ∈ entriesOf state, Legible env item) ∧ env.state.Exact (decomposeMemory state)

instance ReadsBack.decidable [DecidableEq V] (env : StoreEnv V) (state : AgentMemoryState V) :
    Decidable (ReadsBack env state) :=
  inferInstanceAs (Decidable (_ ∧ _))

namespace World

/-- A new agent. -/
def start : World V :=
  { live := some (initial, {}) }

variable [DecidableEq V]

/-- The memory of the running agent after an operation that draws new ids. -/
def operate (world : World V) (operation : Operation V) :
    Option (AgentMemory V × TranscriptLogIndex) := do
  let (memory, index) ← world.live
  if operation.drawn.all (· ∉ world.drawn) then
    let next ← operation.apply memory
    return (next, index)
  else none

def step (env : StoreEnv V) (world : World V) : Event V → Option (World V)
  | .save operation => do
      let (next, index) ← world.operate operation
      let drawn := world.drawn ++ operation.drawn
      match saveMemory env index world.dir next.state with
      | .ok (writes, index) =>
        return {
          dir := world.dir.applyAll writes
          live := some (next, index)
          drawn
          committed := some next.state }
      | .error _ => return { world with live := some (next, index), drawn }
  | .crash operation done count => do
      let (next, index) ← world.operate operation
      let drawn := world.drawn ++ operation.drawn
      match saveMemory env index world.dir next.state with
      | .ok (writes, _) =>
        return {
          dir := world.dir.crash count writes done
          live := none
          drawn
          committed :=
            if (writes.take done).any DiskWrite.replacesState then some next.state
            else world.committed }
      | .error _ => return { world with live := none, drawn }
  | .restart =>
    match loadMemory env world.dir with
    | .ok state => some { world with live := some (AgentMemory.new state, {}) }
    | .error _ => none

/-- What is saved would be read back as it is written. -/
def savesLegibly (env : StoreEnv V) (world : World V) : Event V → Bool
  | .save operation | .crash operation _ _ =>
    (world.operate operation).all fun running => ReadsBack env running.1.state
  | .restart => true

def stepLegibly (env : StoreEnv V) : World V → Event V → Option (World V) :=
  guarded (step env) (savesLegibly env)

end World

/-- The files hold the given memory: it is what loads, and whatever the agent
makes of it next is saved and, if it can be read back, loads in turn. -/
structure Durable [DecidableEq V] (env : StoreEnv V) (world : World V)
    (state : AgentMemoryState V) : Prop where
  loads : loadMemory env world.dir = .ok state
  saves : ∀ operation next, operation.drawn.all (· ∉ world.drawn) →
    Operation.apply (AgentMemory.new state) operation = some next → ReadsBack env next.state →
    ∃ writes index, saveMemory env {} world.dir next.state = .ok (writes, index) ∧
      loadMemory env (world.dir.applyAll writes) = .ok next.state

/-! ## What the log holds -/

/-- The log has each of the given entries once.  What follows them is a part of
the line of an entry that is in no memory. -/
structure Stored (env : StoreEnv V) (drawn : List EntryId) (logged : List (TranscriptItem V))
    (tail : List Char) (file : Option Bytes) : Prop where
  holds : Holds env logged tail file
  legible : ∀ item ∈ logged, Legible env item
  distinct : (logged.map TranscriptItem.id).Nodup
  known : ∀ item ∈ logged, item.id ∈ drawn
  ending : tail = [] ∨ ∃ item, Legible env item ∧ tail <+: lineOf env item ∧
    item.id ∉ logged.map TranscriptItem.id ∧ item.id ∈ drawn

/-- A memory whose entries are in the log. -/
structure Kept (logged : List (TranscriptItem V)) (state : AgentMemoryState V) : Prop where
  storable : Storable state
  inLog : ∀ item ∈ entriesOf state, item ∈ logged

/-- The index has the ids of the log, and of no entry to come. -/
structure Indexed (drawn : List EntryId) (logged : List (TranscriptItem V))
    (index : TranscriptLogIndex) : Prop where
  loaded : index.loaded
  complete : ∀ item ∈ logged, item.id ∈ index.entries
  known : ∀ id ∈ index.entries, id ∈ drawn

variable {index : TranscriptLogIndex} {item : TranscriptItem V}

namespace Stored

variable {env : StoreEnv V} {drawn : List EntryId} {logged : List (TranscriptItem V)}
  {tail : List Char} {file : Option Bytes}

section

variable (stored : Stored env drawn logged tail file)
include stored

theorem plain : '\n' ∉ tail := by
  rcases stored.ending with rfl | ⟨item, -, part, -⟩
  · exact not_mem_nil
  · exact fun mem => lineOf_plain env item (part.subset mem)

theorem readLog_eq : readLog env file = .ok (logged ++ tailEntries env tail) :=
  FileStore.readLog_eq stored.holds stored.plain stored.legible

/-- An entry on the last line has an id of its own. -/
theorem of_mem_tailEntries (mem : item ∈ tailEntries env tail) :
    item.id ∉ logged.map TranscriptItem.id ∧ item.id ∈ drawn := by
  rcases stored.ending with rfl | ⟨other, legible, part, apart⟩
  · exact absurd mem not_mem_nil
  · rw [mem_singleton.mp (legible.tailEntries_subset part mem)]
    exact apart

theorem findEntry_eq (mem : item ∈ logged) :
    findEntry (logged ++ tailEntries env tail) item.id = some item := by
  have absent : (tailEntries env tail).reverse.find? (fun other => other.id = item.id) = none := by
    rw [find?_eq_none]
    intro other last same
    have apart := (stored.of_mem_tailEntries (mem_reverse.mp last)).1
    rw [of_decide_eq_true same] at apart
    exact apart (mem_map_of_mem mem)
  have distinct : (logged.reverse.map TranscriptItem.id).Nodup := by
    rw [map_reverse, nodup_reverse]
    exact stored.distinct
  rw [findEntry, reverse_append, find?_append, absent, Option.none_or]
  exact ParentLinks.find?_key_eq_some distinct (mem_reverse.mpr mem)

theorem mapM_resolve {items : List (TranscriptItem V)} (inLog : ∀ item ∈ items, item ∈ logged) :
    (items.map TranscriptItem.id).mapM (resolve (logged ++ tailEntries env tail)) = .ok items := by
  induction items with
  | nil => rfl
  | cons item items ih =>
    have first : resolve (logged ++ tailEntries env tail) item.id = .ok item := by
      rw [resolve, stored.findEntry_eq (inLog item mem_cons_self)]
    rw [map_cons, mapM_cons, first, ih fun other mem => inLog other (mem_cons_of_mem _ mem)]
    rfl

/-- The entries of a transcript are found under the ids it is named by. -/
theorem transcriptFrom_shapeOf {transcript : AgentTranscript V} (anchored : transcript.Anchored)
    (inLog : ∀ item ∈ transcript.entries, item ∈ logged) :
    transcriptFrom (shapeOf transcript) (logged ++ tailEntries env tail) = .ok transcript := by
  have items := stored.mapM_resolve fun item mem => inLog item (mem_append_left _ mem)
  have archive := stored.mapM_resolve fun item mem => inLog item (mem_append_right _ mem)
  rw [transcriptFrom, shapeOf, items, archive]
  exact congrArg Except.ok anchored.fromParts

theorem composeMemory_decomposeMemory {state : AgentMemoryState V} (kept : Kept logged state) :
    composeMemory (decomposeMemory state) (logged ++ tailEntries env tail) = .ok state := by
  have current := stored.transcriptFrom_shapeOf kept.storable.anchored fun item mem =>
    kept.inLog item (mem_entriesOf_iff.mpr (.inl mem))
  have open_ : (decomposeMemory state).run.mapM (runFrom (logged ++ tailEntries env tail)) =
      .ok state.run := by
    rw [decomposeMemory]
    cases isOpen : state.run with
    | none => rfl
    | some run =>
      have baseline := stored.transcriptFrom_shapeOf (kept.storable.baselines run isOpen)
        fun item mem => kept.inLog item (mem_entriesOf_iff.mpr (.inr ⟨run, isOpen, mem⟩))
      change (runFrom (logged ++ tailEntries env tail)
        ⟨run.runId, run.assistantCommitted, shapeOf run.baselineTranscript⟩).map some = _
      rw [runFrom, baseline]
      rfl
  rw [composeMemory, open_]
  change (transcriptFrom (shapeOf state.transcript) _ >>= _) = _
  rw [current]
  rfl

end

/-- The memory of the snapshot is loaded as it was saved. -/
theorem load_eq {dir : AgentDir} (stored : Stored env drawn logged tail dir.transcript)
    {state : AgentMemoryState V} (kept : Kept logged state)
    (exact : env.state.Exact (decomposeMemory state))
    (snapshot : dir.state = some (env.state.print (decomposeMemory state))) :
    loadMemory env dir = .ok state := by
  have parsed : parseState env (env.state.print (decomposeMemory state)) =
      .ok (decomposeMemory state) := by
    rw [parseState, exact]
    exact if_neg (Nat.lt_irrefl _)
  rw [loadMemory, snapshot]
  change (parseState env _ >>= _) = _
  rw [parsed]
  rw [stored.readLog_eq]
  exact stored.composeMemory_decomposeMemory kept

/-! ## Saving -/

theorem ensureLoaded_eq (stored : Stored env drawn logged tail file)
    (indexed : index.loaded → Indexed drawn logged index) :
    ∃ loaded, ensureLoaded env index file = .ok loaded ∧ Indexed drawn logged loaded := by
  rw [ensureLoaded]
  split
  · rename_i loaded
    exact ⟨index, rfl, indexed loaded⟩
  · rw [stored.readLog_eq]
    refine ⟨_, rfl, rfl, ?_, ?_⟩
    · exact fun item mem => mem_map_of_mem (mem_append_left _ mem)
    · intro id mem
      obtain ⟨item, present, rfl⟩ := mem_map.mp mem
      rcases mem_append.mp present with old | last
      · exact stored.known item old
      · exact (stored.of_mem_tailEntries last).2

end Stored

theorem mem_of_mem_missingEntries {known pending : List EntryId} {entries : List (TranscriptItem V)}
    (mem : item ∈ missingEntries known pending entries) :
    item ∈ entries ∧ item.id ∉ known ∧ item.id ∉ pending := by
  induction entries generalizing pending with
  | nil => exact absurd mem not_mem_nil
  | cons first entries ih =>
    rw [missingEntries] at mem
    split at mem
    · obtain ⟨later, apart⟩ := ih mem
      exact ⟨mem_cons_of_mem _ later, apart⟩
    · rename_i notPending
      split at mem
      · obtain ⟨later, apart⟩ := ih mem
        exact ⟨mem_cons_of_mem _ later, apart⟩
      · rename_i unknown
        rcases mem_cons.mp mem with rfl | mem
        · exact ⟨mem_cons_self, unknown, notPending⟩
        · obtain ⟨later, notKnown, notNext⟩ := ih mem
          exact ⟨mem_cons_of_mem _ later, notKnown,
            fun inPending => notNext (mem_append_left _ inPending)⟩

theorem nodup_missingEntries (known pending : List EntryId) (entries : List (TranscriptItem V)) :
    ((missingEntries known pending entries).map TranscriptItem.id).Nodup := by
  induction entries generalizing pending with
  | nil => exact nodup_nil
  | cons first entries ih =>
    rw [missingEntries]
    split
    · exact ih pending
    · split
      · exact ih pending
      · rw [map_cons, nodup_cons]
        refine ⟨?_, ih _⟩
        intro again
        obtain ⟨item, mem, same⟩ := mem_map.mp again
        exact (mem_of_mem_missingEntries mem).2.2 (same ▸ mem_append_right _ mem_cons_self)

/-- Every entry is known, pending or missing. -/
theorem id_mem_missingEntries {known pending : List EntryId} {entries : List (TranscriptItem V)}
    (mem : item ∈ entries) (unknown : item.id ∉ known) (notPending : item.id ∉ pending) :
    item.id ∈ (missingEntries known pending entries).map TranscriptItem.id := by
  induction entries generalizing pending with
  | nil => exact absurd mem not_mem_nil
  | cons first entries ih =>
    rw [missingEntries]
    rcases mem_cons.mp mem with rfl | mem
    · rw [if_neg notPending, if_neg unknown]
      exact mem_cons_self
    · split
      · exact ih mem notPending
      · split
        · exact ih mem notPending
        · rw [map_cons, mem_cons]
          by_cases same : item.id = first.id
          · exact .inl same
          · refine .inr (ih mem fun inPending => ?_)
            rcases mem_append.mp inPending with old | new
            · exact notPending old
            · exact same (mem_singleton.mp new)

/-- The entries a save adds to the log. -/
structure Missing (logged : List (TranscriptItem V)) (fresh : List EntryId)
    (state : AgentMemoryState V) (missing : List (TranscriptItem V)) : Prop where
  distinct : ((logged ++ missing).map TranscriptItem.id).Nodup
  present : missing ⊆ entriesOf state
  drawn : ∀ item ∈ missing, item.id ∈ fresh
  complete : ∀ item ∈ entriesOf state, item ∈ logged ++ missing

variable {logged : List (TranscriptItem V)}

theorem Indexed.missing {drawn fresh : List EntryId} {state : AgentMemoryState V}
    (indexed : Indexed drawn logged index) (distinct : (logged.map TranscriptItem.id).Nodup)
    (storable : Storable state) (apart : ∀ id ∈ fresh, id ∉ drawn)
    (entries : ∀ item ∈ entriesOf state, item ∈ logged ∨ item.id ∈ fresh) :
    Missing logged fresh state (missingEntries index.entries [] (entriesOf state)) where
  distinct := by
    rw [map_append, nodup_append]
    refine ⟨distinct, nodup_missingEntries _ _ _, ?_⟩
    intro id old other new same
    obtain ⟨item, inLog, rfl⟩ := mem_map.mp old
    obtain ⟨missing, mem, rfl⟩ := mem_map.mp new
    exact (mem_of_mem_missingEntries mem).2.1 (same ▸ indexed.complete item inLog)
  present item mem := (mem_of_mem_missingEntries mem).1
  drawn item mem := by
    obtain ⟨present, unknown, -⟩ := mem_of_mem_missingEntries mem
    rcases entries item present with old | new
    · exact absurd (indexed.complete item old) unknown
    · exact new
  complete item mem := by
    rw [mem_append]
    rcases entries item mem with old | new
    · exact .inl old
    · have unknown : item.id ∉ index.entries := fun known =>
        apart item.id new (indexed.known item.id known)
      obtain ⟨other, missing, same⟩ := mem_map.mp (id_mem_missingEntries mem unknown not_mem_nil)
      have equal := storable.agree other (mem_of_mem_missingEntries missing).1 item mem same
      exact .inr (equal ▸ missing)

namespace Stored

variable {env : StoreEnv V} {drawn fresh : List EntryId} {logged missing : List (TranscriptItem V)}
  {tail : List Char} {dir : AgentDir} {state : AgentMemoryState V}

/-- A save writes the missing entries, then the snapshot. -/
theorem save_eq (stored : Stored env drawn logged tail dir.transcript)
    (indexed : index.loaded → Indexed drawn logged index) (storable : Storable state)
    (apart : ∀ id ∈ fresh, id ∉ drawn)
    (entries : ∀ item ∈ entriesOf state, item ∈ logged ∨ item.id ∈ fresh) :
    ∃ missing after, Missing logged fresh state missing ∧
      Indexed (drawn ++ fresh) (logged ++ missing) after ∧
      saveMemory env index dir state =
        .ok (logWrites env dir.transcript missing ++ stateWrites env state, after) := by
  obtain ⟨loaded, ensured, whole⟩ := stored.ensureLoaded_eq indexed
  have isMissing := whole.missing stored.distinct storable apart entries
  let missing := missingEntries loaded.entries [] (entriesOf state)
  refine ⟨missing, { loaded with entries := loaded.entries ++ missing.map TranscriptItem.id },
    isMissing, ?_, ?_⟩
  · refine ⟨whole.loaded, ?_, ?_⟩
    · intro item mem
      rcases mem_append.mp mem with old | new
      · exact mem_append_left _ (whole.complete item old)
      · exact mem_append_right _ (mem_map_of_mem new)
    · intro id mem
      rcases mem_append.mp mem with old | new
      · exact mem_append_left _ (whole.known id old)
      · obtain ⟨item, isNew, rfl⟩ := mem_map.mp new
        exact mem_append_right _ (isMissing.drawn item isNew)
  · rw [saveMemory, appendMissing, ensured]
    rfl

theorem widen {file : Option Bytes} (stored : Stored env drawn logged tail file)
    (fresh : List EntryId) : Stored env (drawn ++ fresh) logged tail file where
  holds := stored.holds
  legible := stored.legible
  distinct := stored.distinct
  known item mem := mem_append_left _ (stored.known item mem)
  ending := by
    rcases stored.ending with empty | ⟨item, legible, part, absent, known⟩
    · exact .inl empty
    · exact .inr ⟨item, legible, part, absent, mem_append_left _ known⟩

section

variable (stored : Stored env drawn logged tail dir.transcript)
  (isMissing : Missing logged fresh state missing)
include stored isMissing

theorem known_append : ∀ item ∈ logged ++ missing, item.id ∈ drawn ++ fresh := by
  intro item mem
  rcases mem_append.mp mem with old | new
  · exact mem_append_left _ (stored.known item old)
  · exact mem_append_right _ (isMissing.drawn item new)

variable (readsBack : ReadsBack env state)
include readsBack

theorem legible_append : ∀ item ∈ logged ++ missing, Legible env item := by
  intro item mem
  rcases mem_append.mp mem with old | new
  · exact stored.legible item old
  · exact readsBack.1 item (isMissing.present new)

/-- The log after a save. -/
theorem applyAll :
    ∃ ending, Stored env (drawn ++ fresh) (logged ++ missing) ending
      (dir.applyAll (logWrites env dir.transcript missing)).transcript := by
  obtain ⟨ending, same, holds⟩ := stored.holds.applyAll stored.plain missing
  refine ⟨ending, holds, stored.legible_append isMissing readsBack, isMissing.distinct,
    stored.known_append isMissing, ?_⟩
  rcases same with empty | ⟨same, nothing⟩
  · exact .inl empty
  · rw [same, nothing, append_nil]
    exact (stored.widen fresh).ending

/-- The log after a crash that cut no character. -/
theorem crash {count done : Nat}
    (clean : cutsCleanly count (logWrites env dir.transcript missing) done) :
    ∃ front ending, Stored env (drawn ++ fresh) (logged ++ front) ending
      (dir.crash count (logWrites env dir.transcript missing) done).transcript := by
  rcases stored.holds.crash stored.plain clean with same | ⟨front, ending, appended⟩
  · refine ⟨[], tail, ?_⟩
    rw [same, append_nil]
    exact stored.widen fresh
  · have sub : (logged ++ front).Sublist (logged ++ missing) :=
      appended.isPrefix.sublist.append_left logged
    refine ⟨front, ending, appended.holds, ?_, isMissing.distinct.sublist (sub.map _), ?_, ?_⟩
    · exact fun item mem => stored.legible_append isMissing readsBack item (sub.subset mem)
    · exact fun item mem => stored.known_append isMissing item (sub.subset mem)
    · rcases appended.ending with empty | ⟨item, back, split, part⟩
      · exact .inl empty
      · have distinct := isMissing.distinct
        have isNew : item ∈ missing := by
          rw [split]
          exact mem_append_right _ mem_cons_self
        rw [split, ← append_assoc, map_append, nodup_append] at distinct
        refine .inr ⟨item, readsBack.1 item (isMissing.present isNew), part, ?_,
          mem_append_right _ (isMissing.drawn item isNew)⟩
        exact fun earlier => distinct.2.2 item.id earlier item.id mem_cons_self rfl

end

end Stored

/-! ## The writes after the log -/

variable (env : StoreEnv V) (dir : AgentDir) (state : AgentMemoryState V)

variable (count : Nat)

theorem stateWrites_crash (done : Nat) :
    (dir.crash count (stateWrites env state) done).transcript = dir.transcript ∧
      (dir.crash count (stateWrites env state) done).state =
        if done = 0 then dir.state else some (env.state.print (decomposeMemory state)) := by
  rw [stateWrites]
  cases state.transcript.leaf <;> match done with
    | 0 | 1 | done + 2 => exact ⟨rfl, rfl⟩

theorem logWrites_keeps_state (file : Option Bytes) (missing : List (TranscriptItem V)) :
    (logWrites env file missing).any DiskWrite.replacesState = false := by
  rw [logWrites, appendLines]
  split
  · rfl
  · cases file.bind dropTruncatedTail with
    | none | some length => rfl

/-- The snapshot is in place once more than the log was written. -/
theorem replacesState_take (file : Option Bytes) (missing : List (TranscriptItem V)) (done : Nat) :
    ((logWrites env file missing ++ stateWrites env state).take done).any DiskWrite.replacesState =
      decide ((logWrites env file missing).length < done) := by
  have log := logWrites_keeps_state env file missing
  generalize logWrites env file missing = writes at log
  have front : (writes.take done).any DiskWrite.replacesState = false := by
    rw [any_eq_false] at log ⊢
    exact fun write mem => log write (mem_of_mem_take mem)
  rw [take_append, any_append, front, Bool.false_or]
  by_cases later : writes.length < done
  · obtain ⟨more, rfl⟩ := Nat.exists_eq_add_of_lt later
    rw [decide_eq_true later, Nat.add_assoc, Nat.add_sub_cancel_left, stateWrites, take_succ_cons]
    rfl
  · rw [decide_eq_false later, Nat.sub_eq_zero_of_le (Nat.not_lt.mp later)]
    rfl

/-! ## Worlds -/

/-- Nothing is lost: the log holds the entries of the snapshot and of the running
agent. -/
structure Intact (logged : List (TranscriptItem V)) (tail : List Char) (world : World V) :
    Prop where
  stored : Stored env world.drawn logged tail world.dir.transcript
  snapshot : world.dir.state =
    world.committed.map fun state => env.state.print (decomposeMemory state)
  committed : ∀ state ∈ world.committed,
    Kept logged state ∧ env.state.Exact (decomposeMemory state)
  live : ∀ running ∈ world.live, Kept logged running.1.state ∧
    (running.2.loaded → Indexed world.drawn logged running.2)

/-- The log ends inside a character, and no process runs. -/
structure Torn (world : World V) : Prop where
  dead : world.live = none
  broken : decode (world.dir.transcript.getD []) = none

/-- The files are intact, or the log ends inside a character. -/
def Settled (world : World V) : Prop :=
  (∃ logged tail, Intact env logged tail world) ∨ Torn world

variable {env}

theorem Kept.append {state : AgentMemoryState V}
    (kept : Kept logged state) (front : List (TranscriptItem V)) : Kept (logged ++ front) state :=
  ⟨kept.storable, fun item mem => mem_append_left _ (kept.inLog item mem)⟩

/-- A log that is not UTF-8 keeps the agent from being loaded. -/
theorem loadMemory_ne_ok {dir : AgentDir} (broken : decode (dir.transcript.getD []) = none)
    (state : AgentMemoryState V) : loadMemory env dir ≠ .ok state := by
  have unreadable : ∃ error, readLog env dir.transcript = .error error := by
    cases file : dir.transcript with
    | none =>
      rw [file] at broken
      cases broken
    | some bytes =>
      rw [file, Option.getD_some] at broken
      rw [readLog, readOptional, broken]
      exact ⟨_, rfl⟩
  obtain ⟨error, failed⟩ := unreadable
  rw [loadMemory, failed]
  cases dir.state with
  | none => rintro ⟨⟩
  | some contents =>
    change (parseState env contents >>= _) ≠ _
    cases parseState env contents with
    | error error | ok file => rintro ⟨⟩

/-- The files after a save that was completed. -/
theorem Stored.saved {drawn fresh : List EntryId} {missing : List (TranscriptItem V)}
    {tail : List Char} {dir : AgentDir} {state : AgentMemoryState V}
    (stored : Stored env drawn logged tail dir.transcript)
    (isMissing : Missing logged fresh state missing) (storable : Storable state)
    (readsBack : ReadsBack env state) :
    let saved := dir.applyAll (logWrites env dir.transcript missing ++ stateWrites env state)
    Kept (logged ++ missing) state ∧
      saved.state = some (env.state.print (decomposeMemory state)) ∧
      ∃ ending, Stored env (drawn ++ fresh) (logged ++ missing) ending saved.transcript := by
  obtain ⟨ending, log⟩ := stored.applyAll isMissing readsBack
  obtain ⟨transcript, snapshot⟩ :=
    stateWrites_crash env (dir.applyAll (logWrites env dir.transcript missing)) state 0 2
  rw [crash_of_length_le _ _ (Nat.le_refl 2)] at transcript snapshot
  simp only [AgentDir.applyAll, foldl_append] at log transcript snapshot ⊢
  refine ⟨⟨storable, isMissing.complete⟩, snapshot, ending, ?_⟩
  rw [transcript]
  exact log

theorem intact_start : Intact env [] [] (World.start : World V) where
  stored := ⟨rfl, by simp, nodup_nil, by simp, .inl rfl⟩
  snapshot := rfl
  committed state isCommitted := absurd isCommitted (Option.not_mem_none state)
  live := by
    rintro running ⟨⟩
    exact ⟨⟨storable_initial, fun item mem => absurd mem not_mem_nil⟩, nofun⟩

section Steps

variable [DecidableEq V] {logged : List (TranscriptItem V)} {tail : List Char}
  {operation : Operation V} {next : AgentMemory V}

/-- What a save writes after an operation on a memory that is in the log. -/
theorem Stored.save_operation {drawn : List EntryId} {dir : AgentDir} {memory : AgentMemory V}
    (stored : Stored env drawn logged tail dir.transcript) (kept : Kept logged memory.state)
    (indexed : index.loaded → Indexed drawn logged index) (fresh : operation.drawn.all (· ∉ drawn))
    (applied : operation.apply memory = some next) :
    Storable next.state ∧ ∃ missing after, Missing logged operation.drawn next.state missing ∧
      Indexed (drawn ++ operation.drawn) (logged ++ missing) after ∧
      saveMemory env index dir next.state =
        .ok (logWrites env dir.transcript missing ++ stateWrites env next.state, after) := by
  have apart : ∀ id ∈ operation.drawn, id ∉ drawn := by simpa using fresh
  have absent : ∀ id ∈ operation.drawn, id ∉ (entriesOf memory.state).map TranscriptItem.id := by
    intro id new old
    obtain ⟨item, mem, rfl⟩ := mem_map.mp old
    exact apart item.id new (stored.known item (kept.inLog item mem))
  obtain ⟨storable, entries⟩ := Operation.storable_apply kept.storable absent applied
  refine ⟨storable, stored.save_eq indexed storable apart fun item mem => ?_⟩
  rcases entries item mem with old | new
  · exact .inl (kept.inLog item old)
  · exact .inr new

variable {world : World V}

theorem World.operate_eq_some {running : AgentMemory V × TranscriptLogIndex}
    (operated : world.operate operation = some running) :
    ∃ memory, world.live = some (memory, running.2) ∧ operation.drawn.all (· ∉ world.drawn) ∧
      operation.apply memory = some running.1 := by
  simp only [World.operate, Option.bind_eq_bind, Option.bind_eq_some_iff] at operated
  obtain ⟨⟨memory, index⟩, isLive, operated⟩ := operated
  split at operated
  · rename_i fresh
    obtain ⟨after, applied, same⟩ := Option.bind_eq_some_iff.mp operated
    cases same
    exact ⟨memory, isLive, fresh, applied⟩
  · cases operated

namespace Intact

variable {world after : World V}

section

variable (intact : Intact env logged tail world)
include intact

/-- What the running agent's operation leads to, and what a save of it writes. -/
theorem operate {running : AgentMemory V × TranscriptLogIndex}
    (legibly : (world.operate operation).all fun running => ReadsBack env running.1.state)
    (operated : world.operate operation = some running) :
    ReadsBack env running.1.state ∧ Storable running.1.state ∧ ∃ missing after,
      Missing logged operation.drawn running.1.state missing ∧
      Indexed (world.drawn ++ operation.drawn) (logged ++ missing) after ∧
      saveMemory env running.2 world.dir running.1.state =
        .ok (logWrites env world.dir.transcript missing ++ stateWrites env running.1.state,
          after) := by
  rw [operated] at legibly
  obtain ⟨memory, isLive, fresh, applied⟩ := World.operate_eq_some operated
  obtain ⟨kept, indexed⟩ := intact.live _ isLive
  exact ⟨of_decide_eq_true legibly, intact.stored.save_operation kept indexed fresh applied⟩

theorem save (legibly : world.savesLegibly env (.save operation))
    (stepped : world.step env (.save operation) = some after) :
    ∃ logged tail, Intact env logged tail after := by
  obtain ⟨⟨next, index⟩, operated, stepped⟩ := Option.bind_eq_some_iff.mp stepped
  obtain ⟨readsBack, storable, missing, newIndex, isMissing, newIndexed, saved⟩ :=
    intact.operate legibly operated
  obtain ⟨newKept, snapshot, ending, log⟩ := intact.stored.saved isMissing storable readsBack
  simp only [saved] at stepped
  cases stepped
  refine ⟨logged ++ missing, ending, log, snapshot, ?_, ?_⟩
  · rintro state ⟨⟩
    exact ⟨newKept, readsBack.2⟩
  · rintro running ⟨⟩
    exact ⟨newKept, fun _ => newIndexed⟩

theorem crash {done count : Nat} (legibly : world.savesLegibly env (.crash operation done count))
    (stepped : world.step env (.crash operation done count) = some after) :
    Settled env after := by
  obtain ⟨⟨next, index⟩, operated, stepped⟩ := Option.bind_eq_some_iff.mp stepped
  obtain ⟨readsBack, storable, missing, newIndex, isMissing, newIndexed, saved⟩ :=
    intact.operate legibly operated
  simp only [saved, replacesState_take, crash_append] at stepped
  cases stepped
  by_cases inLog : done < (logWrites env world.dir.transcript missing).length
  · -- The crash came before the snapshot was touched.
    have before : ¬ (logWrites env world.dir.transcript missing).length < done :=
      Nat.not_lt.mpr (Nat.le_of_lt inLog)
    simp only [inLog, before, if_true, decide_false, Bool.false_eq_true, if_false]
    cases clean : cutsCleanly count (logWrites env world.dir.transcript missing) done with
    | true =>
      obtain ⟨front, ending, log⟩ := intact.stored.crash isMissing readsBack clean
      refine .inl ⟨logged ++ front, ending, log, ?_, ?_, ?_⟩
      · rw [crash_logWrites_state]
        exact intact.snapshot
      · exact fun state isCommitted =>
          (intact.committed state isCommitted).imp_left (·.append front)
      · exact fun running isLive => absurd isLive (Option.not_mem_none running)
    | false =>
      exact .inr ⟨rfl, intact.stored.holds.crash_torn intact.stored.plain clean⟩
  · -- The log is complete.  The snapshot is in place if one more write was done.
    obtain ⟨ending, log⟩ := intact.stored.applyAll isMissing readsBack
    left
    simp only [inLog, if_false]
    refine ⟨logged ++ missing, ending, ?_, ?_, ?_, ?_⟩
    · rw [(stateWrites_crash ..).1]
      exact log
    · rw [(stateWrites_crash ..).2, ← crash_of_length_le _ 0 (Nat.le_refl _), crash_logWrites_state]
      by_cases replaced : (logWrites env world.dir.transcript missing).length < done
      · simp only [replaced, decide_true, if_true, Nat.sub_ne_zero_of_lt, if_false, Option.map_some]
      · have same : done - (logWrites env world.dir.transcript missing).length = 0 :=
          Nat.sub_eq_zero_of_le (Nat.not_lt.mp replaced)
        simp only [replaced, decide_false, Bool.false_eq_true, same, if_true, if_false]
        exact intact.snapshot
    · intro state isCommitted
      split at isCommitted
      · cases isCommitted
        exact ⟨⟨storable, isMissing.complete⟩, readsBack.2⟩
      · exact (intact.committed state isCommitted).imp_left (·.append missing)
    · exact fun running isLive => absurd isLive (Option.not_mem_none running)

theorem restart (stepped : world.step env .restart = some after) :
    ∃ logged tail, Intact env logged tail after := by
  have snapshot := intact.snapshot
  cases isCommitted : world.committed with
  | none =>
    rw [isCommitted] at snapshot
    rw [World.step, loadMemory, snapshot] at stepped
    cases stepped
  | some state =>
    rw [isCommitted] at snapshot
    obtain ⟨kept, exact⟩ := intact.committed state isCommitted
    rw [World.step, intact.stored.load_eq kept exact snapshot] at stepped
    cases stepped
    refine ⟨logged, tail, intact.stored, intact.snapshot, intact.committed, ?_⟩
    rintro running ⟨⟩
    exact ⟨kept, nofun⟩

theorem durable {state : AgentMemoryState V}
    (isCommitted : world.committed = some state) : Durable env world state where
  loads := by
    have snapshot := intact.snapshot
    rw [isCommitted] at snapshot
    obtain ⟨kept, exact⟩ := intact.committed state isCommitted
    exact intact.stored.load_eq kept exact snapshot
  saves operation next fresh applied readsBack := by
    have unloaded : ({} : TranscriptLogIndex).loaded → Indexed world.drawn logged {} := nofun
    obtain ⟨storable, missing, index, isMissing, -, saved⟩ :=
      intact.stored.save_operation (intact.committed state isCommitted).1 unloaded fresh applied
    obtain ⟨kept, snapshot, ending, log⟩ := intact.stored.saved isMissing storable readsBack
    exact ⟨_, index, saved, log.load_eq kept readsBack.2 snapshot⟩

end

end Intact

/-- Nothing goes on once the log ends inside a character. -/
theorem Torn.step (torn : Torn world) (event : Event V) (after : World V) :
    world.step env event ≠ some after := by
  have stopped (operation : Operation V) : world.operate operation = none := by
    rw [World.operate, torn.dead]
    rfl
  intro stepped
  cases event with
  | save operation | crash operation done count =>
    rw [World.step, stopped] at stepped
    cases stepped
  | restart =>
    rw [World.step] at stepped
    split at stepped
    · rename_i state loaded
      exact loadMemory_ne_ok torn.broken state loaded
    · cases stepped

theorem settled_of_reachable
    (reachable : Reachable (World.stepLegibly env) World.start world) :
    Settled env world := by
  refine Reachable.invariant ?_ ?_ reachable
  · intro state event after holds stepped
    obtain ⟨legibly, stepped⟩ := guarded_eq_some_iff.mp stepped
    rcases holds with ⟨logged, tail, intact⟩ | torn
    · cases event with
      | save operation => exact .inl (intact.save legibly stepped)
      | crash operation done count => exact intact.crash legibly stepped
      | restart => exact .inl (intact.restart stepped)
    · exact absurd stepped (torn.step event after)
  · exact .inl ⟨[], [], intact_start⟩

/-- At every point of every run that saves what can be read back, the last snapshot loads as it
was saved, and what is made of it next is saved and loads in turn, exactly if no crash has left
a part of a character in the log. -/
theorem durable_iff_utf8 {world : World V} {state : AgentMemoryState V}
    (reachable : Reachable (World.stepLegibly env) World.start world)
    (committed : world.committed = some state) :
    Durable env world state ↔ (decode (world.dir.transcript.getD [])).isSome := by
  rcases settled_of_reachable reachable with ⟨logged, tail, intact⟩ | torn
  · have text : decode (world.dir.transcript.getD []) = some (logText env logged tail) := by
      rw [intact.stored.holds, decode_encode]
    rw [text]
    exact ⟨fun _ => rfl, fun _ => intact.durable committed⟩
  · rw [torn.broken]
    exact ⟨fun durable => absurd durable.loads (loadMemory_ne_ok torn.broken state), nofun⟩

end Steps

/-! ## A crash while the first message is logged -/

/-- The message a user opens with. -/
def hello : Message Unit :=
  Message.user (.text "né")

/-- The memory of a new agent after its first run has begun. -/
def begun : AgentMemory Unit :=
  initial.beginRun "run-1" hello ⟨"entry-1"⟩

/-- The line of the message as `serde_json` writes it, with a character of two bytes. -/
def helloText : String :=
  "\x7b\"schema\":1,\"id\":\"entry-1\",\"kind\":\x7b\"type\":\"user_turn\"\x7d," ++
    "\"message\":\x7b\"role\":\"user\",\"content\":" ++
    "[\x7b\"Text\":\x7b\"text\":\"né\"\x7d\x7d]\x7d\x7d"

def helloTexts : List (LogLine Unit × String) :=
  [(⟨schemaVersion, TranscriptItem.ofMessage ⟨"entry-1"⟩ hello⟩, helloText)]

/-- The two snapshots as `serde_json` writes them, line by line. -/
def stateTexts : List (StateFile Unit × String) :=
  [(decomposeMemory initial.state, "\n".intercalate
      ["\x7b", "  \"schema\": 1,", "  \"revision\": 0,", "  \"transcript\": \x7b",
       "    \"items\": []", "  \x7d", "\x7d"]),
    (decomposeMemory begun.state, "\n".intercalate
      ["\x7b", "  \"schema\": 1,", "  \"revision\": 1,", "  \"resumable_user_message\": \x7b",
       "    \"role\": \"user\",", "    \"content\": [", "      \x7b", "        \"Text\": \x7b",
       "          \"text\": \"né\"", "        \x7d", "      \x7d", "    ]", "  \x7d,",
       "  \"transcript\": \x7b", "    \"items\": [", "      \"entry-1\"", "    ]", "  \x7d,",
       "  \"run\": \x7b", "    \"run_id\": \"run-1\",", "    \"assistant_committed\": false,",
       "    \"baseline\": \x7b", "      \"items\": []", "    \x7d", "  \x7d", "\x7d"])]

/-- Reads and writes the values of a table.  Any other value is written as `null`, which is
not read. -/
def tableCodec {T : Type} [DecidableEq T] (rows : List (T × String)) : JsonCodec T where
  print value := (rows.lookup value).getD "null"
  parse text :=
    match rows.find? (·.2 = text) with
    | some row => .ok row.1
    | none => .error "invalid type: null"

/-- The line of the message is the only one that is read. -/
def helloCodec : LineCodec (LogLine Unit) :=
  have written (line : LogLine Unit) :
      (tableCodec helloTexts).print line ∈ [helloText, "null"] := by
    simp only [tableCodec, helloTexts, lookup_cons, lookup_nil]
    split <;> simp
  have plain : ∀ text ∈ [helloText, "null"], text.toList ≠ [] ∧ '\n' ∉ text.toList := by
    decide +kernel
  { tableCodec helloTexts with
    nonempty line := (plain _ (written line)).1
    oneLine line := (plain _ (written line)).2
    torn line cut part short := by
      have other : helloText ≠ String.ofList cut := by
        intro same
        have chars : cut = helloText.toList := by rw [same, String.toList_ofList]
        rcases mem_cons.mp (written line) with isText | isNull
        · exact short (chars.trans (congrArg String.toList isText).symm)
        · rw [chars, mem_singleton.mp isNull] at part
          exact absurd part (by decide +kernel)
      exact ⟨"invalid type: null", by simp [tableCodec, helloTexts, other]⟩ }

def helloEnv : StoreEnv Unit where
  agentId := "agent"
  path := "agents/agent"
  line := helloCodec
  state := tableCodec stateTexts

/-- A new agent is saved, and the machine stops after the given number of bytes of
the line for its first message. -/
def stopsWhileLogging (count : Nat) : List (Event Unit) :=
  [.save .keep, .crash (.journal (.beginRun "run-1" hello ⟨"entry-1"⟩)) 0 count]

/-- What the file holds then. -/
def startOfLine (count : Nat) : Bytes :=
  (encode (joinLines [helloText.toList])).take count

/-- The snapshot of the new agent is in place then. -/
theorem exists_stopped {count : Nat}
    (ran : (run (World.stepLegibly helloEnv) World.start (stopsWhileLogging count)).any fun world =>
      world.committed = some initial.state ∧ world.dir.transcript = some (startOfLine count)) :
    ∃ world, Reachable (World.stepLegibly helloEnv) World.start world ∧
      world.committed = some initial.state ∧ world.dir.transcript = some (startOfLine count) := by
  obtain ⟨world, reachable, reached⟩ := exists_reachable_of_any ran
  exact ⟨world, reachable, of_decide_eq_true reached⟩

/-- Behind the character of two bytes the cut does no harm. -/
theorem durable_after_cut_line :
    ∃ world, Reachable (World.stepLegibly helloEnv) World.start world ∧
      world.dir.transcript = some (startOfLine 111) ∧ Durable helloEnv world initial.state := by
  obtain ⟨world, reachable, committed, file⟩ := @exists_stopped 111 (by decide +kernel)
  refine ⟨world, reachable, file, (durable_iff_utf8 reachable committed).mpr ?_⟩
  rw [file]
  decide +kernel

/-- Inside of it it does: the agent cannot be loaded any more. -/
theorem not_durable_after_cut_character :
    ∃ world, Reachable (World.stepLegibly helloEnv) World.start world ∧
      world.committed = some initial.state ∧ world.dir.transcript = some (startOfLine 110) ∧
      ∀ state, loadMemory helloEnv world.dir ≠ .ok state := by
  obtain ⟨world, reachable, committed, file⟩ := @exists_stopped 110 (by decide +kernel)
  have broken : decode (world.dir.transcript.getD []) = none := by
    rw [file]
    decide +kernel
  exact ⟨world, reachable, committed, file, fun state => loadMemory_ne_ok broken state⟩

end Mentra.FileStore
