import Mentra.Mcp.StreamableHttp.Client

/-!
# What an answered call is told

A `tools/call` that was answered with a status of success may have run.  Whatever goes
wrong with the reply is told as the server's own error or as indeterminate, but for one
thing: a reply whose result has the wrong shape.
-/

namespace Mentra.Mcp.StreamableHttp

open Foundation List Transition

/-- Nobody has been told how the call ended. -/
def Untold (number : Nat) (log : List (Nat × CallEvent)) : Prop :=
  (∀ result, (number, .ended result) ∉ log) ∧ ∀ value, (number, .returned value) ∉ log

/-- How the log speaks of a call that is in a phase. -/
def Told (number : Nat) (log : List (Nat × CallEvent)) : CallPhase → Prop
  | .exchanging (.call _) (.reading _) => Untold number log
  | .finished result =>
    (∀ other, (number, .ended other) ∈ log → other = result) ∧
      (∀ value, (number, .returned value) ∈ log → result = resultOf value) ∧
      ((number, .accepted) ∈ log → candid result ∨ ∃ value, (number, .returned value) ∈ log)
  | .abandoned => Untold number log
  | _ => Untold number log ∧ (number, .accepted) ∉ log

variable {phase : CallPhase}

theorem Told.untold {number : Nat} {log : List (Nat × CallEvent)} (told : Told number log phase)
    (unfinished : ∀ result, phase ≠ .finished result) :
    Untold number log := by
  unfold Told at told
  split at told
  · exact told
  · exact absurd rfl (unfinished _)
  · exact told
  · exact told.1

/-- Whether an event matters for what the call is told. -/
def CallEvent.tells : CallEvent → Bool
  | .ended _ | .returned _ | .accepted => true
  | _ => false

theorem told_append_iff {number : Nat} {log events : List (Nat × CallEvent)}
    (quiet : ∀ event, (number, event) ∈ events → ¬ event.tells) :
    Told number (log ++ events) phase ↔ Told number log phase := by
  have same : ∀ event : CallEvent, event.tells →
      ((number, event) ∈ log ++ events ↔ (number, event) ∈ log) := by
    intro event tells
    rw [mem_append, or_iff_left]
    exact fun mem => quiet event mem tells
  have ended := fun result => same (.ended result) rfl
  have returned := fun value => same (.returned value) rfl
  have accepted := same .accepted rfl
  simp only [Told, Untold, ended, returned, accepted]

section Step

variable {session : Session} {forgotten : List SessionId} {number : Nat}
  {log : List (Nat × CallEvent)}

variable {events : List CallEvent}

theorem mem_log_append_iff {event : CallEvent} :
    (number, event) ∈ log ++ events.map (number, ·) ↔ (number, event) ∈ log ∨ event ∈ events := by
  rw [mem_append, mem_map_of_injective (Prod.mk_right_injective number)]

theorem Told.quietly (told : Told number log phase) (quiet : ∀ event ∈ events, ¬ event.tells) :
    Told number (log ++ events.map (number, ·)) phase := by
  refine (told_append_iff fun event mem => ?_).mpr told
  exact quiet event ((mem_map_of_injective (Prod.mk_right_injective number)).mp mem)

theorem Untold.accept (untold : Untold number log) :
    Untold number (log ++ [CallEvent.accepted].map (number, ·)) := by
  obtain ⟨notEnded, notReturned⟩ := untold
  constructor
  · intro result mem
    exact notEnded result ((mem_log_append_iff.mp mem).resolve_right (by simp))
  · intro value mem
    exact notReturned value ((mem_log_append_iff.mp mem).resolve_right (by simp))

/-- The call ends, and the log says with what. -/
theorem Untold.finish {result : CallResult}
    (untold : Untold number log) (ended : ∀ other, .ended other ∈ events → other = result)
    (returned : ∀ value, .returned value ∈ events → result = resultOf value)
    (answered : (number, .accepted) ∈ log ++ events.map (number, ·) →
      candid result ∨ ∃ value, .returned value ∈ events) :
    Told number (log ++ events.map (number, ·)) (.finished result) := by
  obtain ⟨notEnded, notReturned⟩ := untold
  refine ⟨?_, ?_, ?_⟩
  · intro other mem
    exact ended other ((mem_log_append_iff.mp mem).resolve_left (notEnded other))
  · intro value mem
    exact returned value ((mem_log_append_iff.mp mem).resolve_left (notReturned value))
  · intro accepted
    refine (answered accepted).imp_right ?_
    rintro ⟨value, mem⟩
    exact ⟨value, mem_log_append_iff.mpr (.inr mem)⟩

/-- Only a request that was answered is read. -/
theorem Told.reading_of_accepted {leg : Leg} {stage : Stage}
    (told : Told number log (.exchanging leg stage)) (accepted : (number, .accepted) ∈ log) :
    ∃ again response, leg = .call again ∧ stage = .reading response := by
  unfold Told at told
  split at told
  · rename_i phase
    cases phase
    exact ⟨_, _, rfl, rfl⟩
  · cases ‹CallPhase.exchanging leg stage = _›
  · cases ‹CallPhase.exchanging leg stage = _›
  · exact absurd accepted told.2

theorem Told.moves {move : Move} (told : Told number log phase)
    (moves : Moves session forgotten phase move) :
    Told number (log ++ move.events.map (number, ·)) move.phase := by
  cases moves with
  | sent | handshakeSent | notificationSent | refused | acknowledged | expired | cleared
  | greeted | notified =>
    refine .quietly ?_ (by simp [CallEvent.tells])
    exact told
  | declined leg =>
    refine .quietly ?_ (by simp)
    cases leg with
    | call | handshake | notify => exact told
  | adopted sessionId response =>
    refine .quietly ?_ ?_
    · exact told
    · intro event mem
      obtain ⟨established, -, rfl⟩ := mem_map.mp mem
      exact nofun
  | accepted => exact told.1.accept
  | returned again response value =>
    refine Untold.finish told ?_ ?_ ?_
    · intro other mem
      simpa using mem
    · intro other mem
      have same : other = value := by simpa using mem
      rw [same]
    · exact fun _ => .inr ⟨value, mem_cons_self⟩
  | @failed leg stage error answered =>
    refine (told.untold nofun).finish ?_ ?_ ?_
    · intro other mem
      simpa using mem
    · exact fun other mem => absurd mem (by simp)
    · intro accepted
      have before := (mem_log_append_iff.mp accepted).resolve_right (by simp)
      obtain ⟨again, response, isCall, isReading⟩ := told.reading_of_accepted before
      exact .inl (answered again response isCall isReading)
  | abandoned unfinished =>
    refine .quietly ?_ (by simp)
    exact told.untold unfinished

end Step

/-! ## Runs -/

/-- The log tells of every call what its phase says, and of no other. -/
structure Recorded (client : Client) : Prop where
  told : ∀ number call, client.calls[number]? = some call → Told number client.log call.phase
  numbered : ∀ entry ∈ client.log, entry.1 < client.calls.length

namespace Recorded

variable {limits : McpStreamableHttpLimits} {readers : Readers} {client next : Client}

theorem connected (session : Session) (nextId : Nat) :
    Recorded (.connected session nextId) where
  told _ _ found := absurd found (by simp [Client.connected])
  numbered _ mem := absurd mem (by simp [Client.connected])

/-- The log says nothing of a call that was not made. -/
theorem notMem (recorded : Recorded client) {number : Nat}
    (fresh : client.calls.length ≤ number) (event : CallEvent) :
    (number, event) ∉ client.log := by
  intro mem
  have := recorded.numbered _ mem
  omega

theorem call (recorded : Recorded client) :
    Recorded { client with calls := client.calls ++ [{}] } where
  told number call found := by
    rw [getElem?_append] at found
    split at found
    · exact recorded.told number call found
    · rename_i fresh
      have absent := recorded.notMem (Nat.le_of_not_lt fresh)
      have new : call = {} := by
        obtain ⟨_, same⟩ := List.getElem?_eq_some_iff.mp found
        simpa using same.symm
      subst new
      exact ⟨⟨fun _ => absent _, fun _ => absent _⟩, absent _⟩
  numbered entry mem := by
    have := recorded.numbered entry mem
    rw [length_append]
    omega

theorem act (recorded : Recorded client) {number : Nat} {action : CallAction}
    (stepped : client.step limits readers (.act number action) = some next) :
    Recorded next := by
  obtain ⟨call, move, requestId, found, -, moves, -, calls, log⟩ := Client.moves_of_step stepped
  have inRange := (List.getElem?_eq_some_iff.mp found).1
  constructor
  · intro other otherCall otherFound
    rw [calls] at otherFound
    rw [log]
    by_cases same : number = other
    · subst same
      rw [getElem?_set_self inRange] at otherFound
      cases otherFound
      exact (recorded.told number call found).moves moves
    · rw [getElem?_set_ne same] at otherFound
      refine (told_append_iff ?_).mpr (recorded.told other otherCall otherFound)
      intro event mem
      obtain ⟨_, _, equal⟩ := mem_map.mp mem
      exact absurd (congrArg Prod.fst equal) same
  · intro entry mem
    rw [calls, length_set]
    rw [log, mem_append] at mem
    rcases mem with earlier | added
    · exact recorded.numbered entry earlier
    · obtain ⟨-, -, rfl⟩ := mem_map.mp added
      exact inRange

theorem step (recorded : Recorded client) {action : Action}
    (stepped : client.step limits readers action = some next) : Recorded next := by
  cases action with
  | call =>
    cases stepped
    exact recorded.call
  | act number action => exact recorded.act stepped
  | forget | shutdown =>
    cases stepped
    exact ⟨recorded.told, recorded.numbered⟩

end Recorded

theorem candid_resultOf_iff (value : Json) :
    candid (resultOf value) ↔ (McpToolCallResult.fromValue value).isSome := by
  unfold resultOf
  split
  · rename_i decoded
    simp [candid, decoded]
  · rename_i refused
    simp [candid, refused, shapeError]

/-- A call answered with a status of success ends in a result, in the server's error or as
indeterminate, exactly if no reply with a result of the wrong shape was handed to it. -/
theorem answered_call_candid_iff (limits : McpStreamableHttpLimits) (readers : Readers)
    (session : Session) (nextId : Nat) (client : Client)
    (reachable : Reachable (Client.step limits readers) (.connected session nextId)
      client) (number : Nat) (result : CallResult) (accepted : (number, .accepted) ∈ client.log)
    (ended : (number, .ended result) ∈ client.log) :
    candid result ↔ ∀ value, (number, .returned value) ∈ client.log →
      (McpToolCallResult.fromValue value).isSome := by
  have recorded : Recorded client :=
    reachable.invariant (fun _ _ _ holds stepped => holds.step stepped) (.connected session nextId)
  obtain ⟨call, found⟩ : ∃ call, client.calls[number]? = some call :=
    ⟨_, getElem?_eq_getElem (recorded.numbered _ ended)⟩
  have told := recorded.told number call found
  -- A call of which the log has an end is finished.
  obtain ⟨final, finished⟩ : ∃ final, call.phase = .finished final := by
    by_contra unfinished
    exact (told.untold fun final phase => unfinished ⟨final, phase⟩).1 result ended
  rw [finished] at told
  obtain ⟨same, shaped, answered⟩ := told
  cases same result ended
  constructor
  · intro known value returned
    rw [shaped value returned] at known
    exact (candid_resultOf_iff value).mp known
  · intro decodes
    rcases answered accepted with known | ⟨value, returned⟩
    · exact known
    · rw [shaped value returned]
      exact (candid_resultOf_iff value).mpr (decodes value returned)

/-! ## Two replies -/

def asciiBytes (text : String) : List UInt8 :=
  text.toList.map fun char => UInt8.ofNat char.toNat

/-- Readers that know one text. -/
def readersOf (text : String) (response : JsonRpcResponse) : Readers where
  fromUtf8 _ := none
  fromSlice bytes := if bytes = asciiBytes text then some response else none
  fromStr _ := none

def smallLimits : McpStreamableHttpLimits where
  initializeTimeout := 10
  callToolTimeout := 10
  streamIdleTimeout := 10
  maxResponseBytes := 100
  maxEventBytes := 100

/-- One call that is answered with a text in JSON. -/
def answeredWith (text : String) : List Action :=
  [.call, .act 0 .send,
    .act 0 (.arrive (.ok {
      status := 200
      contentType := some (asciiBytes "application/json")
      body := [.chunk (asciiBytes text)] })),
    .act 0 .settle]

/-- `{"jsonrpc":"2.0","id":1,"result":{}}`. -/
def emptyText : String :=
  "\x7b\"jsonrpc\":\"2.0\",\"id\":1,\"result\":\x7b\x7d\x7d"

def emptyReply : JsonRpcResponse where
  id := .number 1
  result := some (.object [])

def isAccepted : Nat × CallEvent → Bool
  | (0, .accepted) => true
  | _ => false

/-- The first call ends in a way that is told with its certainty, or in one that is not. -/
def isEnded (known : Bool) : Nat × CallEvent → Bool
  | (0, .ended result) => candid result = known
  | _ => false

/-- A result handed to the first call has the right shape. -/
def isShaped : Nat × CallEvent → Bool
  | (0, .returned value) => (McpToolCallResult.fromValue value).isSome
  | _ => true

theorem isAccepted_iff {entry : Nat × CallEvent} : isAccepted entry ↔ entry = (0, .accepted) := by
  unfold isAccepted
  split
  · simp
  · rename_i other
    simpa using other

theorem isEnded_iff {known : Bool} {entry : Nat × CallEvent} :
    isEnded known entry ↔ ∃ result, entry = (0, .ended result) ∧ candid result = known := by
  unfold isEnded
  split
  · simp
  · rename_i other
    simpa using fun result equal => absurd equal (other result)

/-- A result without content is reported as a reply that cannot be parsed. -/
theorem misshapen_result_misreported :
    ∃ client, Reachable (Client.step smallLimits (readersOf emptyText emptyReply))
        (.connected {} 1) client ∧
      ∃ result, (0, .accepted) ∈ client.log ∧ (0, .ended result) ∈ client.log ∧
        ¬ candid result := by
  have found : (run (Client.step smallLimits (readersOf emptyText emptyReply))
      (.connected {} 1) (answeredWith emptyText)).any
        fun client => client.log.any isAccepted && client.log.any (isEnded false) := by
    decide +kernel
  obtain ⟨client, reachable, wrong⟩ := exists_reachable_of_any found
  obtain ⟨answered, told⟩ := Bool.and_eq_true_iff.mp wrong
  obtain ⟨_, accepted, isAccepted⟩ := any_eq_true.mp answered
  obtain ⟨_, ended, isEnded⟩ := any_eq_true.mp told
  cases isAccepted_iff.mp isAccepted
  obtain ⟨result, rfl, unknown⟩ := isEnded_iff.mp isEnded
  exact ⟨client, reachable, result, accepted, ended, by simp [unknown]⟩

/-- `{"jsonrpc":"2.0","id":1,"result":{"content":[]}}`. -/
def doneText : String :=
  "\x7b\"jsonrpc\":\"2.0\",\"id\":1,\"result\":\x7b\"content\":[]\x7d\x7d"

def doneReply : JsonRpcResponse where
  id := .number 1
  result := some (.object [("content", .array [])])

theorem done_call_candid :
    ∃ client, Reachable (Client.step smallLimits (readersOf doneText doneReply))
        (.connected {} 1) client ∧
      ∃ result, (0, .accepted) ∈ client.log ∧ (0, .ended result) ∈ client.log ∧ candid result := by
  have found : (run (Client.step smallLimits (readersOf doneText doneReply))
      (.connected {} 1) (answeredWith doneText)).any fun client =>
        client.log.any isAccepted && client.log.any (isEnded true) && client.log.all isShaped := by
    decide +kernel
  obtain ⟨client, reachable, right⟩ := exists_reachable_of_any found
  rw [Bool.and_eq_true_iff, Bool.and_eq_true_iff, any_eq_true, any_eq_true, all_eq_true] at right
  obtain ⟨⟨⟨_, accepted, isAccepted⟩, _, ended, isEnded⟩, shaped⟩ := right
  cases isAccepted_iff.mp isAccepted
  obtain ⟨result, rfl, -⟩ := isEnded_iff.mp isEnded
  refine ⟨client, reachable, result, accepted, ended, ?_⟩
  exact (answered_call_candid_iff smallLimits (readersOf doneText doneReply) {} 1 client
    reachable 0 result accepted ended).mpr fun value returned => shaped _ returned

end Mentra.Mcp.StreamableHttp
