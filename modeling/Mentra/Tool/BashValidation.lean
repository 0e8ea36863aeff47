import Mentra.Foundation.Text
import Mentra.Foundation.Utf8

/-!
# Commands in read-only mode

`validate_read_only` of `tool/bash_validation.rs` looks behind `sudo` by calling itself on the
command there, which it finds by searching the whole line for its first word: in `sudo su` that
is the `su` of `sudo`, and the call never returns.  A slice that would cut a character is a
panic.
-/

namespace Mentra.BashValidation

open Foundation Text Utf8

inductive ValidationResult
  | allow
  | block (reason : String)
  | warn (message : String)

/-- How a call can end without a result. -/
inductive Fault
  | panic
  | outOfFuel

def writeCommands : List String :=
  ["cp", "mv", "rm", "mkdir", "rmdir", "touch", "chmod", "chown", "chgrp", "ln", "install", "tee",
    "truncate", "shred", "mkfifo", "mknod", "dd"]

def stateModifyingCommands : List String :=
  ["apt", "apt-get", "yum", "dnf", "pacman", "brew", "pip", "pip3", "npm", "yarn", "pnpm", "bun",
    "cargo", "gem", "go", "rustup", "docker", "systemctl", "service", "mount", "umount", "kill",
    "pkill", "killall", "reboot", "shutdown", "halt", "poweroff", "useradd", "userdel", "usermod",
    "groupadd", "groupdel", "crontab", "at"]

def writeRedirections : List String :=
  [">", ">>", ">&"]

def gitReadOnlySubcommands : List String :=
  ["status", "log", "diff", "show", "branch", "tag", "stash", "remote", "fetch", "ls-files",
    "ls-tree", "cat-file", "rev-parse", "describe", "shortlog", "blame", "bisect", "reflog",
    "config"]

/-! ## The first word -/

/-- The byte offset of the first character with a property, counted from `offset`. -/
def offsetOf (stops : Char → Bool) : Nat → List Char → Option Nat
  | _, [] => none
  | offset, char :: rest =>
    if stops char then some offset else offsetOf stops (offset + char.utf8Size) rest

/-- `u8::is_ascii_whitespace`. -/
def isAsciiWhitespace (char : Char) : Bool :=
  char ∈ [' ', '\t', '\n', '\x0c', '\r']

/-- The end of the word in which a quoted value is closed. -/
def closeQuote (quote : Char) : Char → Nat → List Char → Option Nat
  | _, _, [] => none
  | previous, offset, char :: rest =>
    if char = quote ∧ previous ≠ '\\' then offsetOf isAsciiWhitespace (offset + 1) rest
    else closeQuote quote char (offset + char.utf8Size) rest

/-- The offset counts from the first character that is not white space. -/
def findEndOfValue (text : List Char) : Option Nat :=
  match text.dropWhile isWhiteSpace with
  | [] => none
  | first :: rest =>
    if first = '"' ∨ first = '\'' then closeQuote first first 1 rest
    else offsetOf isWhiteSpace 0 (first :: rest)

/-- The loop of `extract_first_command`, which skips assignments. -/
def firstCommandIn (remaining : List Char) : Option String :=
  let next := remaining.dropWhile isWhiteSpace
  let name := next.takeWhile (· ≠ '=')
  let value := next.drop (name.length + 1)
  if _assigns : name.length < next.length ∧ name ≠ [] ∧
      name.all fun char => char.isAlphanum || char = '_' then
    match findEndOfValue value with
    | some space =>
      match _sliced : splitAtByte value space with
      | some (_, rest) => firstCommandIn rest
      | none => none
    | none => some ""
  else some (String.ofList ((splitWhitespace remaining).head?.getD []))
termination_by remaining.length
decreasing_by
  have behind := congrArg List.length (splitAtByte_eq_some_iff.mp _sliced).1
  have trimmed : next.length ≤ remaining.length := (List.dropWhile_suffix isWhiteSpace).length_le
  rw [List.length_drop, List.length_append] at behind
  omega

def extractFirstCommand (command : String) : Option String :=
  firstCommandIn (trim command).toList

/-! ## The validation -/

/-- The first word behind `sudo` that is no option. -/
def sudoWord (command : String) : Option (List Char) :=
  ((splitWhitespace command.toList).dropWhile (· ≠ "sudo".toList)).tail.find? (·.head? ≠ some '-')

def extractSudoInner (command : String) : String :=
  match sudoWord command with
  | some part => String.ofList ((command.toList.tails.find? (part <+: ·)).getD command.toList)
  | none => ""

def validateGitReadOnly (command : String) : ValidationResult :=
  match (splitWhitespace command.toList).tail.find? (·.head? ≠ some '-') with
  | some sub =>
    if String.ofList sub ∈ gitReadOnlySubcommands then .allow
    else .block ("Git subcommand '" ++ String.ofList sub ++
      "' modifies repository state and is not allowed in read-only mode")
  | none => .allow

/-- What `validate_read_only` does after it has looked behind `sudo`. -/
def validateLine (first command : String) : ValidationResult :=
  match writeRedirections.find? (·.toList <:+: command.toList) with
  | some redirection => .block ("Command contains write redirection '" ++ redirection ++
      "' which is not allowed in read-only mode")
  | none => if first = "git" then validateGitReadOnly command else .allow

def validateReadOnly : Nat → String → Except Fault ValidationResult
  | 0, _ => .error .outOfFuel
  | fuel + 1, command =>
    match extractFirstCommand command with
    | none => .error .panic
    | some first =>
      if first ∈ writeCommands then
        .ok (.block ("Command '" ++ first ++
          "' modifies the filesystem and is not allowed in read-only mode"))
      else if first ∈ stateModifyingCommands then
        .ok (.block ("Command '" ++ first ++
          "' modifies system state and is not allowed in read-only mode"))
      else if first = "sudo" ∧ extractSudoInner command ≠ "" then
        match validateReadOnly fuel (extractSudoInner command) with
        | .ok .allow => .ok (validateLine first command)
        | result => result
      else .ok (validateLine first command)

/-- The call returns or panics. -/
def Ends (command : String) : Prop :=
  ∃ fuel, validateReadOnly fuel command ≠ .error .outOfFuel

/-- The call on `command` calls itself on `inner`. -/
def Recurses (command inner : String) : Prop :=
  extractFirstCommand command = some "sudo" ∧ extractSudoInner command ≠ "" ∧
    inner = extractSudoInner command

/-! ## Termination -/

variable {command inner later : String}

theorem outOfFuel_succ_iff {fuel : Nat} :
    validateReadOnly (fuel + 1) command = .error .outOfFuel ↔
      ∃ inner, Recurses command inner ∧ validateReadOnly fuel inner = .error .outOfFuel := by
  rw [validateReadOnly]
  cases read : extractFirstCommand command with
  | none => simp [Recurses, read]
  | some first =>
    by_cases looks : first = "sudo" ∧ extractSudoInner command ≠ ""
    · obtain ⟨rfl, nonempty⟩ := looks
      have notWrite : "sudo" ∉ writeCommands := by decide
      have notState : "sudo" ∉ stateModifyingCommands := by decide
      simp only [notWrite, notState, nonempty, if_false, ne_eq, not_false_eq_true, and_self,
        if_true, Recurses, read, true_and, exists_eq_left]
      split <;> simp_all
    · simp only [looks, if_false, Recurses, read, Option.some.injEq]
      split_ifs <;> simp_all

/-- What is found behind `sudo` is an end of the line. -/
theorem extractSudoInner_suffix (command : String) :
    (extractSudoInner command).toList <:+ command.toList := by
  rw [extractSudoInner]
  split
  · rename_i part _
    cases found : command.toList.tails.find? (part <+: ·) with
    | none => simp
    | some tail => simpa using (List.mem_tails _ _).mp (List.mem_of_find?_eq_some found)
  · exact List.nil_suffix

theorem sudoWord_spec {word : List Char} (isWord : sudoWord command = some word) :
    word <:+: command.toList ∧ word ≠ [] := by
  have mem := List.mem_of_find?_eq_some isWord
  exact of_mem_splitWhitespace ((List.dropWhile_suffix _).subset (List.mem_of_mem_tail mem))

/-- The call comes back to its own command iff the word it looks for starts the line: a word of
the line that does not start it is found further on. -/
theorem recurses_self_iff : Recurses command command ↔
    extractFirstCommand command = some "sudo" ∧
      ∃ word ∈ sudoWord command, word <+: command.toList := by
  constructor
  · rintro ⟨first, nonempty, same⟩
    refine ⟨first, ?_⟩
    cases isWord : sudoWord command with
    | none => simp [extractSudoInner, isWord] at nonempty
    | some word =>
      obtain ⟨before, after, inside⟩ := (sudoWord_spec isWord).1
      have occurs : (command.toList.tails.find? (word <+: ·)).isSome := by
        rw [List.find?_isSome]
        refine ⟨word ++ after, ?_, by simp⟩
        rw [List.mem_tails, ← inside, List.append_assoc]
        exact List.suffix_append before _
      obtain ⟨tail, found⟩ := Option.isSome_iff_exists.mp occurs
      have whole : tail = command.toList := by
        simpa [extractSudoInner, isWord, found] using (congrArg String.toList same).symm
      have starts := List.find?_some found
      rw [whole, decide_eq_true_eq] at starts
      exact ⟨word, rfl, starts⟩
  · rintro ⟨first, word, isWord, starts⟩
    have found : command.toList.tails.find? (word <+: ·) = some command.toList := by
      cases isLine : command.toList <;> simp_all
    have same : extractSudoInner command = command := by
      simp [extractSudoInner, Option.mem_def.mp isWord, found]
    refine ⟨first, ?_, same.symm⟩
    rw [same]
    rintro rfl
    exact (sudoWord_spec isWord).2 (List.prefix_nil.mp starts)

theorem not_ends_of_recurses_self (recurses : Recurses command command) : ¬ Ends command := by
  rintro ⟨fuel, ended⟩
  induction fuel with
  | zero => exact ended rfl
  | succ fuel ih => exact ended (outOfFuel_succ_iff.mpr ⟨command, recurses, of_not_not ih⟩)

theorem Recurses.shorter (recurses : Recurses command inner) (differs : inner ≠ command) :
    inner.length < command.length := by
  have isEnd := extractSudoInner_suffix command
  rw [← recurses.2.2] at isEnd
  rw [← String.length_toList, ← String.length_toList]
  refine Nat.lt_of_le_of_ne isEnd.length_le fun same => differs ?_
  exact String.toList_inj.mp (isEnd.eq_of_length same)

theorem Recurses.ends_iff (recurses : Recurses command inner) : Ends command ↔ Ends inner := by
  constructor
  · rintro ⟨fuel, ended⟩
    cases fuel with
    | zero => exact absurd rfl ended
    | succ fuel => exact ⟨fuel, fun out => ended (outOfFuel_succ_iff.mpr ⟨inner, recurses, out⟩)⟩
  · rintro ⟨fuel, ended⟩
    refine ⟨fuel + 1, fun out => ?_⟩
    obtain ⟨other, again, out⟩ := outOfFuel_succ_iff.mp out
    rw [again.2.2, ← recurses.2.2] at out
    exact ended out

/-- The call ends iff it comes to no line behind `sudo` that starts with the word looked for,
the first one behind its own `sudo` that is no option.  Any other command it calls itself on is
strictly shorter. -/
theorem validateReadOnly_ends_iff (command : String) :
    (Ends command ↔ ∀ later, Relation.ReflTransGen Recurses command later →
      extractFirstCommand later = some "sudo" →
        ∀ word ∈ sudoWord later, ¬ word <+: later.toList) ∧
    ∀ inner, Recurses command inner → inner ≠ command → inner.length < command.length := by
  refine ⟨⟨?_, ?_⟩, fun inner recurses => recurses.shorter⟩
  · intro ends later reached
    have endsLater : Ends later := by
      induction reached with
      | refl => exact ends
      | tail _ step ih => exact step.ends_iff.mp ih
    intro first word isWord starts
    exact not_ends_of_recurses_self (recurses_self_iff.mpr ⟨first, word, isWord, starts⟩) endsLater
  · intro shrinks
    induction length : command.length using Nat.strong_induction_on generalizing command with
    | h count ih =>
      by_cases calls : ∃ inner, Recurses command inner
      · obtain ⟨inner, recurses⟩ := calls
        have differs : inner ≠ command := by
          rintro rfl
          obtain ⟨first, word, isWord, starts⟩ := recurses_self_iff.mp recurses
          exact shrinks inner .refl first word isWord starts
        have shorter := recurses.shorter differs
        refine recurses.ends_iff.mpr (ih inner.length (by omega) inner ?_ rfl)
        exact fun later reached => shrinks later (.head recurses reached)
      · refine ⟨1, fun out => ?_⟩
        obtain ⟨inner, recurses, -⟩ := outOfFuel_succ_iff.mp out
        exact calls ⟨inner, recurses⟩

/-- The word behind `sudo` is found in `sudo` itself. -/
theorem sudo_su_recurses : Recurses "sudo su" "sudo su" ∧ ¬ Ends "sudo su" := by
  have first : extractFirstCommand "sudo su" = some "sudo" := by
    rw [extractFirstCommand, firstCommandIn]
    decide +kernel
  have isInner : extractSudoInner "sudo su" = "sudo su" := by decide +kernel
  have recurses : Recurses "sudo su" "sudo su" := ⟨first, by rw [isInner]; decide, isInner.symm⟩
  exact ⟨recurses, not_ends_of_recurses_self recurses⟩

end Mentra.BashValidation
