import Mentra.Foundation.TextFile
import Mentra.Journal.Core
import Mentra.Runtime.Error

/-!
# The file store

Model of the part of `mentra/src/runtime/file_store` that keeps an agent's memory: the
snapshot `state.json`, which names entries by id, and the log `transcript.jsonl` of their
contents.  A save is the list of its writes to disk.  A crash leaves the first of them done
and, when the next one is an append, some of its bytes.  Replacing a file is atomic.  The
record of the agent and the content hash of debug builds are left out.

JSON is written and read by a library.  What the store relies on is part of `LineCodec`; not
every value is read back as it was written.
-/

namespace Mentra

open Foundation
open Foundation.TextFile

/-- How values are written as text and read back. -/
structure JsonCodec (T : Type) where
  print : T → String
  parse : String → Except String T

/-- The value is read back as it was written. -/
abbrev JsonCodec.Exact {T : Type} (codec : JsonCodec T) (value : T) : Prop :=
  codec.parse (codec.print value) = .ok value

/-- How values are written on one line each. -/
structure LineCodec (T : Type) extends JsonCodec T where
  nonempty : ∀ value, (print value).toList ≠ []
  oneLine : ∀ value, '\n' ∉ (print value).toList
  torn : ∀ value cut, cut <+: (print value).toList → cut ≠ (print value).toList →
    ∃ error, parse (String.ofList cut) = .error error

namespace FileStore

variable {V : Type}

/-- The newest file layout this build understands. -/
def schemaVersion : Nat := 1

/-! ## Files -/

/-- One line of the log. -/
structure LogLine (V : Type) where
  schema : Nat
  item : TranscriptItem V
  deriving DecidableEq

/-- A transcript by reference. -/
structure TranscriptShape where
  items : List EntryId
  archive : List EntryId := []
  deriving DecidableEq

structure RunFile where
  runId : String
  assistantCommitted : Bool
  baseline : TranscriptShape
  deriving DecidableEq

/-- The snapshot: a memory without the contents of its entries. -/
structure StateFile (V : Type) where
  schema : Nat
  revision : Nat
  pendingTurn : Option PendingTurnState := none
  resumableUserMessage : Option (Message V) := none
  transcript : TranscriptShape
  run : Option RunFile := none
  interruptedTurn : Bool := false
  deriving DecidableEq

/-- An agent's files and how values are written to them. -/
structure StoreEnv (V : Type) where
  agentId : String
  path : String
  line : LineCodec (LogLine V)
  state : JsonCodec (StateFile V)

/-- An agent's directory. -/
structure AgentDir where
  transcript : Option Bytes := none
  state : Option String := none
  leaf : Option String := none

/-- One change a save makes to the directory. -/
inductive DiskWrite
  | setLen (length : Nat)
  | append (bytes : Bytes)
  | replaceState (text : String)
  | replaceLeaf (text : String)
  | removeLeaf

namespace AgentDir

variable (dir : AgentDir)

def apply : DiskWrite → AgentDir
  | .setLen length => { dir with transcript := dir.transcript.map (·.take length) }
  | .append bytes => { dir with transcript := some (dir.transcript.getD [] ++ bytes) }
  | .replaceState text => { dir with state := some text }
  | .replaceLeaf text => { dir with leaf := some text }
  | .removeLeaf => { dir with leaf := none }

/-- The first `count` bytes of an append; nothing of any other write. -/
def applyPart (count : Nat) : DiskWrite → AgentDir
  | .append bytes => dir.apply (.append (bytes.take count))
  | _ => dir

def applyAll (writes : List DiskWrite) : AgentDir :=
  writes.foldl apply dir

/-- What a crash leaves: so many writes in full, and `count` bytes of the next
one if it is an append. -/
def crash (dir : AgentDir) (count : Nat) : List DiskWrite → Nat → AgentDir
  | [], _ => dir
  | write :: _, 0 => dir.applyPart count write
  | write :: rest, done + 1 => (dir.apply write).crash count rest done

end AgentDir

def storeError (context error : String) : RuntimeError :=
  .store (context ++ ": " ++ error)

/-! ## Filesystem primitives -/

/-- The loop of `drop_truncated_tail`, backwards in chunks: the length to cut back to, unless
the file ends in a line feed. -/
def truncateLoop (chunkSize : Nat) (positive : 0 < chunkSize) (bytes : Bytes) (stop : Nat) :
    Option Nat :=
  let start := stop - chunkSize
  let chunk := (bytes.drop start).take (stop - start)
  if stop = bytes.length ∧ chunk.getLast? = some newline then none
  else
    match rposition (· = newline) chunk with
    | some offset => some (start + offset + 1)
    | none => if start = 0 then some 0 else truncateLoop chunkSize positive bytes start
termination_by stop
decreasing_by omega

def dropTruncatedTail (bytes : Bytes) : Option Nat :=
  if bytes.length = 0 then none else truncateLoop 4096 (by decide) bytes bytes.length

def appendLines (file : Option Bytes) (lines : List (List Char)) : List DiskWrite :=
  if lines.isEmpty then []
  else
    ((file.bind dropTruncatedTail).map DiskWrite.setLen).toList ++
      [.append (encode (joinLines lines))]

/-- Text that is not UTF-8 cannot be read. -/
def readOptional (path : String) : Option Bytes → Except RuntimeError (Option (List Char))
  | none => .ok none
  | some bytes =>
    match decode bytes with
    | some text => .ok (some text)
    | none => .error (storeError ("read '" ++ path ++ "'") "stream did not contain valid UTF-8")

/-! ## The entry log -/

variable (env : StoreEnv V)

def transcriptPath : String :=
  env.path ++ "/transcript.jsonl"

def logLine (item : TranscriptItem V) : String :=
  env.line.print ⟨schemaVersion, item⟩

def parseLine (line : String) : Except RuntimeError (TranscriptItem V) :=
  match env.line.parse line with
  | .error error => .error (.store error)
  | .ok parsed =>
    if parsed.schema > schemaVersion then
      .error (.store ("transcript line schema " ++ toString parsed.schema ++
        " is newer than this build understands (" ++ toString schemaVersion ++ ")"))
    else .ok parsed.item

/-- The entries on the given lines, of which the first has the given number. -/
def readLines (env : StoreEnv V) (endsWithNewline : Bool) :
    Nat → List (List Char) → Except RuntimeError (List (TranscriptItem V))
  | _, [] => .ok []
  | number, line :: rest =>
    if line.isEmpty then readLines env endsWithNewline (number + 1) rest
    else
      match parseLine env (String.ofList line) with
      | .ok item => (readLines env endsWithNewline (number + 1) rest).map (item :: ·)
      | .error error =>
        if rest.isEmpty && !endsWithNewline then
          readLines env endsWithNewline (number + 1) rest
        else
          .error (storeError
            ("parse '" ++ transcriptPath env ++ "' line " ++ toString number)
            (error.display toString))

/-- The entries of the log in the order of their lines. -/
def readLog (file : Option Bytes) :
    Except RuntimeError (List (TranscriptItem V)) := do
  match ← readOptional (transcriptPath env) file with
  | none => return []
  | some contents =>
    readLines env (contents.getLast? = some '\n') 1 (contents.splitOn '\n')

variable (entries : List (TranscriptItem V))

/-- The entry under an id; the last occurrence wins. -/
def findEntry (id : EntryId) : Option (TranscriptItem V) :=
  entries.reverse.find? fun item => item.id = id

/-- The ids the log is known to hold. -/
structure TranscriptLogIndex where
  loaded : Bool := false
  entries : List EntryId := []

variable (index : TranscriptLogIndex)

def ensureLoaded (file : Option Bytes) : Except RuntimeError TranscriptLogIndex :=
  if index.loaded then .ok index
  else do
    let entries ← readLog env file
    return { loaded := true, entries := entries.map TranscriptItem.id }

/-- The entries whose ids are neither known nor pending already. -/
def missingEntries (known : List EntryId) :
    List EntryId → List (TranscriptItem V) → List (TranscriptItem V)
  | _, [] => []
  | pending, item :: rest =>
    if item.id ∈ pending then missingEntries known pending rest
    else if item.id ∈ known then missingEntries known pending rest
    else item :: missingEntries known (pending ++ [item.id]) rest

def appendMissing (file : Option Bytes) (entries : List (TranscriptItem V)) :
    Except RuntimeError (List DiskWrite × TranscriptLogIndex) := do
  let index ← ensureLoaded env index file
  let missing := missingEntries index.entries [] entries
  let writes := appendLines file (missing.map fun item => (logLine env item).toList)
  return (writes, { index with entries := index.entries ++ missing.map TranscriptItem.id })

/-! ## Memory snapshots -/

/-- Every entry a memory refers to. -/
def entriesOf (memory : AgentMemoryState V) : List (TranscriptItem V) :=
  memory.transcript.entries ++ (memory.run.map fun run => run.baselineTranscript.entries).getD []

def shapeOf (transcript : AgentTranscript V) : TranscriptShape where
  items := transcript.items.map TranscriptItem.id
  archive := transcript.archive.map TranscriptItem.id

def decomposeMemory (memory : AgentMemoryState V) : StateFile V where
  schema := schemaVersion
  revision := memory.revision
  pendingTurn := memory.pendingTurn
  resumableUserMessage := memory.resumableUserMessage
  transcript := shapeOf memory.transcript
  run := memory.run.map fun run =>
    { runId := run.runId
      assistantCommitted := run.assistantCommitted
      baseline := shapeOf run.baselineTranscript }
  interruptedTurn := memory.interruptedTurn

def resolve (id : EntryId) : Except RuntimeError (TranscriptItem V) :=
  match findEntry entries id with
  | some item => .ok item
  | none => .error (.store ("transcript entry '" ++ id.value ++
      "' is named by state.json but missing from transcript.jsonl"))

def transcriptFrom (shape : TranscriptShape) (entries : List (TranscriptItem V)) :
    Except RuntimeError (AgentTranscript V) := do
  let items ← shape.items.mapM (resolve entries)
  let archive ← shape.archive.mapM (resolve entries)
  return AgentTranscript.fromParts items archive

def runFrom (run : RunFile) :
    Except RuntimeError (RunMemoryState V) := do
  let baselineTranscript ← transcriptFrom run.baseline entries
  return { runId := run.runId, baselineTranscript, assistantCommitted := run.assistantCommitted }

def composeMemory (state : StateFile V) (entries : List (TranscriptItem V)) :
    Except RuntimeError (AgentMemoryState V) := do
  let transcript ← transcriptFrom state.transcript entries
  let run ← state.run.mapM (runFrom entries)
  return {
    transcript
    pendingTurn := state.pendingTurn
    resumableUserMessage := state.resumableUserMessage
    revision := state.revision
    run
    interruptedTurn := state.interruptedTurn }

/-! ## Saving and loading -/

/-- `parse_versioned` of the snapshot. -/
def parseState (contents : String) : Except RuntimeError (StateFile V) :=
  match env.state.parse contents with
  | .error error => .error (storeError "parse state.json" error)
  | .ok file =>
    if file.schema > schemaVersion then
      .error (.store ("state.json schema " ++ toString file.schema ++
        " is newer than this build understands (" ++ toString schemaVersion ++ ")"))
    else .ok file

/-- The snapshot and the pointer for tools, in the order they are written after
the log. -/
def stateWrites (memory : AgentMemoryState V) : List DiskWrite :=
  [.replaceState (env.state.print (decomposeMemory memory)),
    match memory.transcript.leaf with
    | some leaf => .replaceLeaf (leaf.value ++ "\n")
    | none => .removeLeaf]

/-- `save_memory`: the writes of a save, and the index after all of them. -/
def saveMemory (dir : AgentDir) (memory : AgentMemoryState V) :
    Except RuntimeError (List DiskWrite × TranscriptLogIndex) := do
  let (writes, index) ← appendMissing env index dir.transcript (entriesOf memory)
  return (writes ++ stateWrites env memory, index)

/-- The memory part of `finish_load`. -/
def loadMemory (dir : AgentDir) : Except RuntimeError (AgentMemoryState V) := do
  match dir.state with
  | none => throw (.store ("Agent '" ++ env.agentId ++ "' is missing persisted memory"))
  | some contents =>
    let stateFile ← parseState env contents
    let entries ← readLog env dir.transcript
    composeMemory stateFile entries

end FileStore

end Mentra
