import Mentra.Runtime.Error

/-!
# Execution hooks

The hook chains around a tool execution of `mentra/src/runtime/control/hooks.rs` and
`execution_hooks.rs`.  Each hook of a chain is asked at most once, so a hook is the function
from what it is shown to what it answers.

`Threaded` says what a chain is for: every hook is shown the input as its predecessors left
it, none of them refuses, and the last rewrite, if any, is what the chain leaves.
-/

namespace Mentra

structure PreExecutionContext where
  agentId : String
  toolName : String
  toolCallId : String
  inputJson : String
  workingDirectory : String

structure PostExecutionContext (V : Type) where
  agentId : String
  toolName : String
  toolCallId : String
  inputJson : String
  workingDirectory : String
  content : ToolResultContent V
  isError : Bool

inductive HookDecision
  | allow
  | deny (reason : String)
  | modify (inputJson : String) (reason : Option String)

inductive ResultDecision (V : Type)
  | keep
  | replace (content : ToolResultContent V) (isError : Bool)

inductive BeforeDecision
  | continue
  | deny (reason : String)
  | modify (inputJson : String) (attribution : Option String)

inductive AfterDecision (V : Type)
  | continue
  | deny (reason : String)
  | replace (content : ToolResultContent V) (isError : Option Bool) (attribution : Option String)

abbrev PreExecutionHook :=
  PreExecutionContext → Except RuntimeError HookDecision

abbrev PostExecutionHook (V : Type) :=
  PostExecutionContext V → Except RuntimeError (ResultDecision V)

/-- One named participant of the mixed chain. -/
structure ExecutionHookParticipant (V : Type) where
  name : String
  before : PreExecutionContext → Except RuntimeError BeforeDecision
  after : PostExecutionContext V → Except RuntimeError (AfterDecision V)

/-! ## Running a snapshot -/

namespace PreExecutionHookSnapshot

/-- The loop of `run`: the context as the hooks so far left it, and the last
rewrite. -/
def runLoop : List PreExecutionHook → PreExecutionContext → Option HookDecision →
    Except RuntimeError HookDecision
  | [], _, modified => .ok (modified.getD .allow)
  | hook :: hooks, current, modified =>
    match hook current with
    | .error error => .error error
    | .ok .allow => runLoop hooks current modified
    | .ok (.deny reason) => .ok (.deny reason)
    | .ok (.modify inputJson reason) =>
      runLoop hooks { current with inputJson } (some (.modify inputJson reason))

def run (hooks : List PreExecutionHook) (context : PreExecutionContext) :
    Except RuntimeError HookDecision :=
  runLoop hooks context none

end PreExecutionHookSnapshot

namespace PostExecutionHookSnapshot

variable {V : Type}

def runLoop : List (PostExecutionHook V) → PostExecutionContext V → ResultDecision V →
    Except RuntimeError (ResultDecision V)
  | [], _, replaced => .ok replaced
  | hook :: hooks, current, replaced =>
    match hook current with
    | .error error => .error error
    | .ok .keep => runLoop hooks current replaced
    | .ok (.replace content isError) =>
      runLoop hooks { current with content, isError } (.replace content isError)

/-- Post-execution hooks run in reverse order. -/
def run (hooks : List (PostExecutionHook V)) (context : PostExecutionContext V) :
    Except RuntimeError (ResultDecision V) :=
  runLoop hooks.reverse context .keep

end PostExecutionHookSnapshot

namespace ExecutionHookSnapshot

variable {V : Type}

def namedDenial (name reason : String) : String :=
  "denied by execution hook '" ++ name ++ "': " ++ reason

def namedAttribution (name : String) : Option String → String
  | some attribution => "execution hook '" ++ name ++ "': " ++ attribution
  | none => "execution hook '" ++ name ++ "'"

def beforeLoop : List (ExecutionHookParticipant V) → PreExecutionContext → List String →
    Except RuntimeError BeforeDecision
  | [], current, attributions =>
    .ok (if attributions.isEmpty then .continue
      else .modify current.inputJson (some ("; ".intercalate attributions)))
  | participant :: participants, current, attributions =>
    match participant.before current with
    | .error error => .error error
    | .ok .continue => beforeLoop participants current attributions
    | .ok (.deny reason) => .ok (.deny (namedDenial participant.name reason))
    | .ok (.modify inputJson attribution) =>
      beforeLoop participants { current with inputJson }
        (attributions ++ [namedAttribution participant.name attribution])

def before (participants : List (ExecutionHookParticipant V)) (context : PreExecutionContext) :
    Except RuntimeError BeforeDecision :=
  beforeLoop participants context []

def afterLoop : List (ExecutionHookParticipant V) → PostExecutionContext V → List String →
    Except RuntimeError (AfterDecision V)
  | [], current, attributions =>
    .ok (if attributions.isEmpty then .continue
      else .replace current.content (some current.isError) (some ("; ".intercalate attributions)))
  | participant :: participants, current, attributions =>
    match participant.after current with
    | .error error => .error error
    | .ok .continue => afterLoop participants current attributions
    | .ok (.deny reason) => .ok (.deny (namedDenial participant.name reason))
    | .ok (.replace content isError attribution) =>
      afterLoop participants { current with content, isError := isError.getD current.isError }
        (attributions ++ [namedAttribution participant.name attribution])

def after (participants : List (ExecutionHookParticipant V)) (context : PostExecutionContext V) :
    Except RuntimeError (AfterDecision V) :=
  afterLoop participants context []

end ExecutionHookSnapshot

/-! ## What a chain leaves of an input -/

/-- The rewrite a decision asks for; `none` when it refuses. -/
def HookDecision.verdict : HookDecision → Option (Option String)
  | allow => some none
  | deny _ => none
  | modify inputJson _ => some (some inputJson)

def BeforeDecision.verdict : BeforeDecision → Option (Option String)
  | BeforeDecision.continue => some none
  | deny _ => none
  | modify inputJson _ => some (some inputJson)

/-- What a hook says to what it is shown. -/
def preHookVerdict (hook : PreExecutionHook) (context : PreExecutionContext) :
    Option (Option String) :=
  (hook context).toOption.bind HookDecision.verdict

def participantVerdict {V : Type} (participant : ExecutionHookParticipant V)
    (context : PreExecutionContext) : Option (Option String) :=
  (participant.before context).toOption.bind BeforeDecision.verdict

/-- No hook fails or refuses, each is shown the input as the ones before it left it, and the
last rewrite is what the chain leaves. -/
inductive Threaded {H : Type} (verdict : H → PreExecutionContext → Option (Option String)) :
    List H → PreExecutionContext → Option String → Prop
  | nil (context : PreExecutionContext) : Threaded verdict [] context none
  | keeps {hook : H} {hooks : List H} {context : PreExecutionContext} {rewritten : Option String}
      (kept : verdict hook context = some none) (rest : Threaded verdict hooks context rewritten) :
      Threaded verdict (hook :: hooks) context rewritten
  | rewrites {hook : H} {hooks : List H} {context : PreExecutionContext} {text : String}
      {rewritten : Option String} (rewrote : verdict hook context = some (some text))
      (rest : Threaded verdict hooks { context with inputJson := text } rewritten) :
      Threaded verdict (hook :: hooks) context (some (rewritten.getD text))

variable {context : PreExecutionContext} {result : Option String}

theorem PreExecutionHookSnapshot.runLoop_threaded {hooks : List PreExecutionHook}
    {modified : Option HookDecision} {decision : HookDecision}
    {earlier : Option String} (before : (modified.getD .allow).verdict = some earlier)
    (ran : runLoop hooks context modified = .ok decision)
    (proceeds : decision.verdict = some result) :
    ∃ rewritten, Threaded preHookVerdict hooks context rewritten ∧
      result = rewritten.or earlier := by
  induction hooks generalizing context modified earlier with
  | nil =>
    cases ran
    rw [proceeds, Option.some.injEq] at before
    exact ⟨none, .nil context, before⟩
  | cons hook hooks ih =>
    rw [runLoop] at ran
    cases answer : hook context with
    | error error => simp [answer] at ran
    | ok said =>
      have verdict : preHookVerdict hook context = said.verdict := by
        simp [preHookVerdict, answer, Except.toOption]
      cases said with
      | allow =>
        simp only [answer] at ran
        obtain ⟨rewritten, rest, last⟩ := ih before ran
        exact ⟨rewritten, .keeps verdict rest, last⟩
      | deny reason =>
        simp only [answer, Except.ok.injEq] at ran
        rw [← ran] at proceeds
        cases proceeds
      | modify inputJson reason =>
        simp only [answer] at ran
        have rewrote : ((some (HookDecision.modify inputJson reason)).getD .allow).verdict =
            some (some inputJson) := rfl
        obtain ⟨rewritten, rest, last⟩ := ih rewrote ran
        refine ⟨some (rewritten.getD inputJson), .rewrites verdict rest, ?_⟩
        rw [last]
        cases rewritten with
        | none | some text => rfl

theorem ExecutionHookSnapshot.beforeLoop_threaded {V : Type}
    {participants : List (ExecutionHookParticipant V)} {attributions : List String}
    {decision : BeforeDecision} (ran : beforeLoop participants context attributions = .ok decision)
    (proceeds : decision.verdict = some result) :
    ∃ rewritten, Threaded participantVerdict participants context rewritten ∧
      result = if attributions.isEmpty then rewritten
        else some (rewritten.getD context.inputJson) := by
  induction participants generalizing context attributions with
  | nil =>
    refine ⟨none, .nil context, ?_⟩
    rw [beforeLoop, Except.ok.injEq] at ran
    rw [← ran] at proceeds
    split at proceeds
    · rename_i untouched
      rw [if_pos untouched]
      exact (Option.some.inj proceeds).symm
    · rename_i touched
      rw [if_neg touched]
      exact (Option.some.inj proceeds).symm
  | cons participant participants ih =>
    rw [beforeLoop] at ran
    cases answer : participant.before context with
    | error error => simp [answer] at ran
    | ok said =>
      have verdict : participantVerdict participant context = said.verdict := by
        simp [participantVerdict, answer, Except.toOption]
      cases said with
      | «continue» =>
        simp only [answer] at ran
        obtain ⟨rewritten, rest, last⟩ := ih ran
        exact ⟨rewritten, .keeps verdict rest, last⟩
      | deny reason =>
        simp only [answer, Except.ok.injEq] at ran
        rw [← ran] at proceeds
        cases proceeds
      | modify inputJson attribution =>
        simp only [answer] at ran
        obtain ⟨rewritten, rest, last⟩ := ih ran
        refine ⟨some (rewritten.getD inputJson), .rewrites verdict rest, ?_⟩
        simpa using last

end Mentra
