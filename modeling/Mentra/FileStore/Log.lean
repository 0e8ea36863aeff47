import Mentra.FileStore.Core
import Mentra.Foundation.Outcome

/-!
# The entry log

What the log holds, as the entries on its whole lines and the text after the last of them.
Appending first cuts off that text; an append that was cut off between two characters leaves
whole lines and a part of the next.
-/

namespace Mentra.FileStore

open Foundation List Option
open Foundation.TextFile
open Foundation.Outcome (bind_eq_ok_iff)

variable {V : Type} (env : StoreEnv V)

/-- The line of an entry, without its line feed. -/
def lineOf (item : TranscriptItem V) : List Char :=
  (logLine env item).toList

/-- The text of a log with the given entries on whole lines. -/
def logText (logged : List (TranscriptItem V)) (tail : List Char) : List Char :=
  joinLines (logged.map (lineOf env)) ++ tail

/-- The file holds the given entries on whole lines and `tail` after them. -/
def Holds (logged : List (TranscriptItem V)) (tail : List Char) (file : Option Bytes) : Prop :=
  file.getD [] = encode (logText env logged tail)

/-- The entries read off the text after the last line feed. -/
def tailEntries (tail : List Char) : List (TranscriptItem V) :=
  if tail.isEmpty then []
  else
    match parseLine env (String.ofList tail) with
    | .ok item => [item]
    | .error _ => []

theorem lineOf_plain (item : TranscriptItem V) : '\n' ∉ lineOf env item :=
  env.line.oneLine _

theorem lines_plain (logged : List (TranscriptItem V)) :
    ∀ line ∈ logged.map (lineOf env), '\n' ∉ line := by
  intro line mem
  obtain ⟨item, -, rfl⟩ := mem_map.mp mem
  exact lineOf_plain env item

/-! ## Reading -/

/-- The entry is read off its line as it is. -/
abbrev Legible (item : TranscriptItem V) : Prop :=
  env.line.Exact ⟨schemaVersion, item⟩

variable {env}

theorem Legible.parseLine_lineOf {item : TranscriptItem V} (legible : Legible env item) :
    parseLine env (String.ofList (lineOf env item)) = .ok item := by
  rw [parseLine, lineOf, String.ofList_toList, logLine, legible]
  exact if_neg (Nat.lt_irrefl _)

variable {tail : List Char}

/-- A part of a line is no entry, or the entry of the whole line. -/
theorem Legible.tailEntries_subset {item : TranscriptItem V} (legible : Legible env item)
    (part : tail <+: lineOf env item) : tailEntries env tail ⊆ [item] := by
  by_cases whole : tail = lineOf env item
  · rw [whole, tailEntries, legible.parseLine_lineOf]
    split
    · exact nil_subset _
    · exact List.Subset.refl _
  · obtain ⟨error, torn⟩ := env.line.torn _ tail part whole
    rw [tailEntries, parseLine, torn]
    split
    · exact nil_subset _
    · exact nil_subset _

theorem readLines_lines (endsWithNewline : Bool) (number : Nat) {logged : List (TranscriptItem V)}
    (legible : ∀ item ∈ logged, Legible env item) (ends : tail ≠ [] → endsWithNewline = false) :
    readLines env endsWithNewline number (logged.map (lineOf env) ++ [tail]) =
      .ok (logged ++ tailEntries env tail) := by
  induction logged generalizing number with
  | nil =>
    rw [map_nil, nil_append, nil_append, readLines, tailEntries]
    split
    · rfl
    · rename_i nonempty
      have unended : endsWithNewline = false := ends (by simpa using nonempty)
      cases parseLine env (String.ofList tail) with
      | ok item => rfl
      | error error => simp [unended, readLines]
  | cons item logged ih =>
    have nonempty : (lineOf env item).isEmpty = false :=
      isEmpty_eq_false_iff.mpr (env.line.nonempty _)
    have first := (legible item mem_cons_self).parseLine_lineOf
    have rest := ih (number + 1) fun other mem => legible other (mem_cons_of_mem _ mem)
    simp only [map_cons, cons_append, readLines, nonempty, Bool.false_eq_true, if_false, first,
      rest]
    rfl

variable {logged : List (TranscriptItem V)} {file : Option Bytes}

theorem readLog_eq (holds : Holds env logged tail file) (plain : '\n' ∉ tail)
    (legible : ∀ item ∈ logged, Legible env item) :
    readLog env file = .ok (logged ++ tailEntries env tail) := by
  have lines : (logText env logged tail).splitOn '\n' = logged.map (lineOf env) ++ [tail] :=
    splitOn_joinLines (lines_plain env logged) plain
  have ends : tail ≠ [] → decide ((logText env logged tail).getLast? = some '\n') = false := by
    intro nonempty
    rw [logText, getLast?_append_of_ne_nil _ nonempty, decide_eq_false_iff_not]
    exact fun last => plain (mem_of_getLast? last)
  cases file with
  | none =>
    have empty : encode (logText env logged tail) = encode [] := holds.symm
    have text := Option.some.inj ((decode_encode _).symm.trans
      ((congrArg decode empty).trans (decode_encode [])))
    have read := readLines_lines _ 1 legible ends
    rw [← lines, text] at read
    exact read
  | some bytes =>
    have contents : decode bytes = some (logText env logged tail) := by
      rw [← decode_encode (logText env logged tail)]
      exact congrArg decode holds
    rw [readLog, readOptional, contents]
    change readLines env _ 1 ((logText env logged tail).splitOn '\n') = _
    rw [lines]
    exact readLines_lines _ 1 legible ends

/-! ## Repairing the tail -/

variable (env)

/-- Empty, or with a line feed at the end. -/
def Complete (bytes : Bytes) : Prop :=
  bytes = [] ∨ ∃ front, bytes = front ++ [newline]

variable {complete rest : Bytes}

theorem getLast?_chunk {bytes : Bytes} {start : Nat} (within : start < bytes.length) :
    ((bytes.drop start).take (bytes.length - start)).getLast? = bytes.getLast? := by
  rw [take_of_length_le (by simp)]
  conv_rhs => rw [← take_append_drop start bytes]
  rw [getLast?_append_of_ne_nil]
  simpa using within

/-- The loop stops right after the last line feed. -/
theorem truncateLoop_eq {chunkSize : Nat} (positive : 0 < chunkSize) (ends : Complete complete)
    (plain : newline ∉ rest) (nonempty : rest ≠ []) (stop : Nat) (after : complete.length ≤ stop)
    (started : 0 < stop)
    (within : stop ≤ (complete ++ rest).length) :
    truncateLoop chunkSize positive (complete ++ rest) stop = some complete.length := by
  induction stop using Nat.strongRecOn with
  | ind stop ih =>
    have goesOn : ¬ (stop = (complete ++ rest).length ∧
        (((complete ++ rest).drop (stop - chunkSize)).take
          (stop - (stop - chunkSize))).getLast? = some newline) := by
      rintro ⟨rfl, last⟩
      rw [getLast?_chunk (by omega), getLast?_append_of_ne_nil _ nonempty] at last
      exact plain (mem_of_getLast? last)
    rw [truncateLoop, if_neg goesOn]
    by_cases reached : stop - chunkSize < complete.length
    · -- The chunk holds the last line feed.
      obtain rfl | ⟨front, rfl⟩ := ends
      · exact absurd reached (Nat.not_lt_zero _)
      · rw [length_append, length_singleton] at reached after
        have chunk : ((front ++ [newline] ++ rest).drop (stop - chunkSize)).take
            (stop - (stop - chunkSize)) =
              front.drop (stop - chunkSize) ++ newline :: rest.take (stop - front.length - 1) := by
          rw [append_assoc, drop_append_of_le_length (by omega), take_append,
            take_of_length_le (by rw [length_drop]; omega), length_drop]
          have one : stop - (stop - chunkSize) - (front.length - (stop - chunkSize)) =
              stop - front.length - 1 + 1 := by omega
          rw [one]
          rfl
        rw [chunk, rposition_append_cons _ (by simp) fun byte mem => ?_]
        · simp only [length_drop, length_append, length_singleton, Option.some.injEq]
          omega
        · have other : byte ≠ newline := fun same => plain (same ▸ mem_of_mem_take mem)
          simpa using other
    · -- No line feed is in the chunk, nor after it.
      have chunk : rposition (· = newline) (((complete ++ rest).drop (stop - chunkSize)).take
          (stop - (stop - chunkSize))) = none := by
        apply rposition_eq_none
        intro byte mem
        have inRest := mem_of_mem_take mem
        rw [drop_append, drop_of_length_le (Nat.not_lt.mp reached), nil_append] at inRest
        have other : byte ≠ newline := fun same => plain (same ▸ mem_of_mem_drop inRest)
        simpa using other
      rw [chunk]
      by_cases first : stop - chunkSize = 0
      · rw [first, Nat.not_lt, Nat.le_zero] at reached
        rw [reached]
        exact if_pos first
      · rw [if_neg first]
        exact ih (stop - chunkSize) (by omega) (Nat.not_lt.mp reached) (by omega) (by omega)

/-- The bytes of a file after its tail was repaired. -/
def repaired (bytes : Bytes) : Bytes :=
  match dropTruncatedTail bytes with
  | none => bytes
  | some length => bytes.take length

/-- Repairing cuts off what follows the last line feed. -/
theorem repaired_append (ends : Complete complete) (plain : newline ∉ rest) :
    repaired (complete ++ rest) = complete := by
  rw [repaired, dropTruncatedTail]
  by_cases whole : rest = []
  · -- Nothing to repair: the file is empty or ends in a line feed.
    rw [whole, append_nil]
    rcases ends with rfl | ⟨front, rfl⟩
    · rfl
    · have nonempty : ¬ (front ++ [newline]).length = 0 := by simp
      have left : truncateLoop 4096 (by decide) (front ++ [newline])
          (front ++ [newline]).length = none := by
        have within : (front ++ [newline]).length - 4096 < (front ++ [newline]).length := by
          omega
        have last := getLast?_chunk within
        rw [getLast?_concat] at last
        rw [truncateLoop, if_pos ⟨rfl, last⟩]
      rw [if_neg nonempty, left]
  · have nonempty : ¬ (complete ++ rest).length = 0 := by simp [whole]
    have cut := truncateLoop_eq (by decide : 0 < 4096) ends plain whole
      (complete ++ rest).length (by simp) (by omega) (Nat.le_refl _)
    rw [if_neg nonempty, cut]
    exact take_left

theorem exists_complete_append (bytes : Bytes) :
    ∃ complete rest, bytes = complete ++ rest ∧ Complete complete ∧ newline ∉ rest := by
  induction bytes using reverseRecOn with
  | nil => exact ⟨[], [], rfl, .inl rfl, not_mem_nil⟩
  | append_singleton bytes last ih =>
    by_cases ends : last = newline
    · exact ⟨bytes ++ [last], [], (append_nil _).symm, .inr ⟨bytes, by rw [ends]⟩, not_mem_nil⟩
    · obtain ⟨complete, rest, rfl, isComplete, plain⟩ := ih
      refine ⟨complete, rest ++ [last], append_assoc _ _ _, isComplete, ?_⟩
      simp [plain, Ne.symm ends]

theorem Complete.within_of_append {front : Bytes} (ends : Complete front)
    (isPrefix : front <+: complete ++ rest) (plain : newline ∉ rest) : front <+: complete := by
  rcases prefix_or_prefix_of_prefix isPrefix (prefix_append complete rest) with
    within | ⟨further, rfl⟩
  · exact within
  · rw [prefix_append_right_inj] at isPrefix
    rcases further.eq_nil_or_concat with rfl | ⟨more, last, rfl⟩
    · simp
    · -- A line feed past the complete part would be one in the rest.
      rcases ends with empty | ⟨others, split⟩
      · simp at empty
      · rw [concat_eq_append, ← append_assoc] at split
        obtain ⟨-, isNewline⟩ := append_inj' split rfl
        rw [singleton_inj] at isNewline
        exact absurd (isPrefix.mem (by simp [isNewline])) plain

/-- A repaired file is the longest part of its start that is empty or ends in a line feed. -/
theorem repaired_longest_complete (bytes : Bytes) :
    repaired bytes <+: bytes ∧ Complete (repaired bytes) ∧
      ∀ front, front <+: bytes → Complete front → front <+: repaired bytes := by
  obtain ⟨complete, rest, rfl, ends, plain⟩ := exists_complete_append bytes
  rw [repaired_append ends plain]
  exact ⟨prefix_append _ _, ends, fun front isPrefix isComplete =>
    isComplete.within_of_append isPrefix plain⟩

theorem complete_joinLines (lines : List (List Char)) : Complete (encode (joinLines lines)) := by
  rcases lines.eq_nil_or_concat with rfl | ⟨front, last, rfl⟩
  · exact .inl rfl
  · refine .inr ⟨encode (joinLines front) ++ encode last, ?_⟩
    simp only [concat_eq_append, joinLines_append, joinLines_cons, joinLines_nil,
      encode_append, append_assoc]
    rfl

theorem repaired_logText (logged : List (TranscriptItem V)) (plain : '\n' ∉ tail) :
    repaired (encode (logText env logged tail)) = encode (logText env logged []) := by
  have plainBytes : newline ∉ encode tail := fun mem => plain ((newline_mem_encode_iff tail).mp mem)
  rw [logText, logText, append_nil, encode_append]
  exact repaired_append (complete_joinLines _) plainBytes

/-! ## Appending -/

/-- Whether a crash leaves whole characters of the write it interrupts. -/
def cutsCleanly (count : Nat) : List DiskWrite → Nat → Bool
  | [], _ => true
  | .append bytes :: _, 0 => (decode (bytes.take count)).isSome
  | _ :: _, 0 => true
  | _ :: rest, done + 1 => cutsCleanly count rest done

/-- The writes that repair a file's tail. -/
def repairs (file : Option Bytes) : List DiskWrite :=
  ((file.bind dropTruncatedTail).map DiskWrite.setLen).toList

variable (dir : AgentDir)

theorem repairs_cases :
    (repairs dir.transcript = [] ∧ dir.transcript.getD [] = repaired (dir.transcript.getD [])) ∨
      ∃ length, repairs dir.transcript = [.setLen length] ∧
        (dir.apply (.setLen length)).transcript.getD [] = repaired (dir.transcript.getD []) := by
  obtain ⟨transcript, state, leaf⟩ := dir
  cases transcript with
  | none => exact .inl ⟨rfl, rfl⟩
  | some bytes =>
    cases cut : dropTruncatedTail bytes with
    | none =>
      left
      simp [repairs, repaired, cut]
    | some length =>
      right
      exact ⟨length, by simp [repairs, cut], by simp [AgentDir.apply, repaired, cut]⟩

theorem crash_append (count : Nat) (log rest : List DiskWrite) (done : Nat) :
    dir.crash count (log ++ rest) done =
      if done < log.length then dir.crash count log done
      else (dir.applyAll log).crash count rest (done - log.length) := by
  induction log generalizing dir done with
  | nil => rfl
  | cons write log ih =>
    cases done with
    | zero => rfl
    | succ done =>
      simp only [cons_append, AgentDir.crash, ih, length_cons,
        Nat.add_lt_add_iff_right, Nat.add_sub_add_right]
      rfl

theorem crash_of_length_le (count : Nat) {writes : List DiskWrite} {done : Nat}
    (all : writes.length ≤ done) : dir.crash count writes done = dir.applyAll writes := by
  have whole := crash_append dir count writes [] done
  rw [append_nil, if_neg (Nat.not_lt.mpr all)] at whole
  exact whole

variable {env}

/-- What is left after some of the `missing` entries were appended. -/
structure Appended (env : StoreEnv V) (logged missing : List (TranscriptItem V))
    (front : List (TranscriptItem V)) (tail : List Char) (file : Option Bytes) : Prop where
  holds : Holds env (logged ++ front) tail file
  isPrefix : front <+: missing
  ending : tail = [] ∨ ∃ item back, missing = front ++ item :: back ∧ tail <+: lineOf env item

variable {missing : List (TranscriptItem V)} {count done : Nat}

/-- The bytes of the lines of some entries. -/
def block (env : StoreEnv V) (missing : List (TranscriptItem V)) : Bytes :=
  encode (joinLines (missing.map (lineOf env)))

/-- The writes that append them. -/
def logWrites (env : StoreEnv V) (file : Option Bytes) (missing : List (TranscriptItem V)) :
    List DiskWrite :=
  appendLines file (missing.map (lineOf env))

theorem decode_block : (decode ((block env missing).take (block env missing).length)).isSome := by
  rw [take_length, block, decode_encode]
  rfl

/-- Bytes cut off between two characters are whole lines and a part of the next. -/
theorem appended_of_cut (clean : (decode ((block env missing).take count)).isSome) :
    ∃ front tail, Appended env logged missing front tail
      (some (encode (logText env logged []) ++ (block env missing).take count)) := by
  obtain ⟨cut, decoded⟩ := isSome_iff_exists.mp clean
  obtain ⟨lines, tail, rfl, ending⟩ := exists_of_prefix_joinLines (prefix_of_decode_take decoded)
  have written (front : List (TranscriptItem V)) (lines_eq : lines = front.map (lineOf env)) :
      Holds env (logged ++ front) tail
        (some (encode (logText env logged []) ++ (block env missing).take count)) := by
    rw [Holds, getD_some, eq_encode_of_decode decoded, lines_eq]
    simp [logText]
  rcases ending with ⟨rfl, rfl⟩ | ⟨line, back, split, part⟩
  · exact ⟨missing, [], written missing rfl, prefix_refl missing, .inl rfl⟩
  · obtain ⟨front, rest, rfl, rfl, restLines⟩ := map_eq_append_iff.mp split
    obtain ⟨item, others, rfl, rfl, -⟩ := map_eq_cons_iff.mp restLines
    exact ⟨front, tail, written front rfl, prefix_append _ _, .inr ⟨item, others, rfl, part⟩⟩

/-- What a crash leaves of the writes to the log: the file as it was, or some bytes behind the
repaired file. -/
inductive Leaves (env : StoreEnv V) (dir after : AgentDir) (missing : List (TranscriptItem V))
    (clean whole : Bool) : Prop
  | nothing (state : after.state = dir.state) (same : after.transcript = dir.transcript)
      (isClean : clean = true)
      (isWhole : whole = true → missing = [])
  | bytes (state : after.state = dir.state) (count : Nat)
      (isClean : clean = (decode ((block env missing).take count)).isSome)
      (written : after.transcript =
        some (repaired (dir.transcript.getD []) ++ (block env missing).take count))
      (isWhole : whole = true → (block env missing).length ≤ count)

theorem crash_logWrites (env : StoreEnv V) (dir : AgentDir) (missing : List (TranscriptItem V))
    (count done : Nat) :
    Leaves env dir (dir.crash count (logWrites env dir.transcript missing) done) missing
      (cutsCleanly count (logWrites env dir.transcript missing) done)
      ((logWrites env dir.transcript missing).length ≤ done) := by
  by_cases nothing : missing = []
  · subst nothing
    exact .nothing rfl rfl rfl fun _ => rfl
  · have writes : logWrites env dir.transcript missing =
        repairs dir.transcript ++ [.append (block env missing)] := by
      rw [logWrites, appendLines, if_neg (by simpa using nothing)]
      rfl
    rw [writes]
    rcases repairs_cases dir with ⟨none, same⟩ | ⟨length, one, same⟩
    · rw [none]
      match done with
      | 0 => exact .bytes rfl count rfl (congrArg (fun file => some (file ++ _)) same) (by simp)
      | _ + 1 =>
        refine .bytes rfl _ decode_block.symm ?_ (fun _ => Nat.le_refl _)
        rw [take_length]
        exact congrArg (fun file => some (file ++ _)) same
    · rw [one]
      match done with
      | 0 => exact .nothing rfl rfl rfl (by simp)
      | 1 => exact .bytes rfl count rfl (congrArg (fun file => some (file ++ _)) same) (by simp)
      | _ + 2 =>
        refine .bytes rfl _ decode_block.symm ?_ (fun _ => Nat.le_refl _)
        rw [take_length]
        exact congrArg (fun file => some (file ++ _)) same

namespace Holds

variable {dir : AgentDir} (holds : Holds env logged tail dir.transcript) (plain : '\n' ∉ tail)
include holds plain

/-- A crash leaves the file alone, or some of the entries in a file that was repaired first. -/
theorem crash (clean : cutsCleanly count (logWrites env dir.transcript missing) done) :
    (dir.crash count (logWrites env dir.transcript missing) done).transcript = dir.transcript ∨
      ∃ front tail, Appended env logged missing front tail
        (dir.crash count (logWrites env dir.transcript missing) done).transcript := by
  cases crash_logWrites env dir missing count done with
  | nothing _ same _ _ => exact .inl same
  | bytes _ count isClean written _ =>
    rw [written, holds, repaired_logText env logged plain]
    exact .inr (appended_of_cut (isClean.symm.trans clean))

theorem applyAll (missing : List (TranscriptItem V)) :
    ∃ ending, (ending = [] ∨ ending = tail ∧ missing = []) ∧
      Holds env (logged ++ missing) ending
        (dir.applyAll (logWrites env dir.transcript missing)).transcript := by
  rw [← crash_of_length_le dir 0 (Nat.le_refl _)]
  cases crash_logWrites env dir missing 0 (logWrites env dir.transcript missing).length with
  | nothing _ same _ isWhole =>
    have none := isWhole (by simp)
    rw [same, none, append_nil]
    exact ⟨tail, .inr ⟨rfl, rfl⟩, holds⟩
  | bytes _ count _ written isWhole =>
    refine ⟨[], .inl rfl, ?_⟩
    rw [written, holds, repaired_logText env logged plain, take_of_length_le (isWhole (by simp))]
    simp [Holds, block, logText]

/-- An append cut off inside a character leaves bytes that are no text. -/
theorem crash_torn (torn : cutsCleanly count (logWrites env dir.transcript missing) done = false) :
    decode ((dir.crash count (logWrites env dir.transcript missing) done).transcript.getD []) =
      none := by
  cases crash_logWrites env dir missing count done with
  | nothing _ _ isClean _ => cases isClean.symm.trans torn
  | bytes _ count isClean written _ =>
    rw [written, holds, repaired_logText env logged plain, getD_some]
    exact decode_encode_append (not_isSome_iff_eq_none.mp (by simp [← isClean, torn]))

end Holds

/-- Writes to the log leave the snapshot alone. -/
theorem crash_logWrites_state (missing : List (TranscriptItem V)) (count done : Nat) :
    (dir.crash count (logWrites env dir.transcript missing) done).state = dir.state := by
  cases crash_logWrites env dir missing count done with
  | nothing state | bytes state => exact state

end Mentra.FileStore
